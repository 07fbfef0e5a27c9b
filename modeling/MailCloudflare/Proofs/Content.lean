/-
Every part of a mail is sent once: as a body, or as one attachment.

The walk stops at an attached message and goes on through everything that is multipart, so
it meets the nodes of document order that are neither multipart nor below an attached
message.  The bodies are taken out by identity, which is by node because no two nodes are
one object.  What is left is numbered by its place in the list of attachments.
-/
import MailCloudflare.Odoo.Content
import Mathlib.Data.List.Perm.Basic

namespace MailCloudflare

open Unicode Python

/-! ### The parts of a mail -/

/-- A node that is neither multipart nor below an attached message. -/
def isOuter (node : Part × Bool) : Bool := !node.1.isContainer && !node.2

/-- The parts a mail is made of, in document order. -/
def outerParts (root : Part) : List Part := ((nodes false root).filter isOuter).map Prod.fst

/-- The parts that are no body. -/
def attachedParts (message : MimeMessage) : List Part :=
  (outerParts message.root).filter fun part => part.id ∉ message.bodies.map Part.id

/-! ### What the walk meets -/

mutual

/-- Nothing below an attached message is a part of the outer mail. -/
theorem filter_nodes_true (part : Part) : (nodes true part).filter isOuter = [] := by
  match part with
  | .leaf .. => rfl
  | .multipart id contentType headers subparts =>
      show (nodesOfAll true subparts).filter isOuter = []
      exact filter_nodesOfAll_true subparts
  | .rfc822 id headers inner =>
      show (nodes true inner).filter isOuter = []
      exact filter_nodes_true inner

theorem filter_nodesOfAll_true (parts : List Part) :
    (nodesOfAll true parts).filter isOuter = [] := by
  match parts with
  | [] => rfl
  | part :: rest =>
      rw [nodesOfAll, List.filter_append, filter_nodes_true part, filter_nodesOfAll_true rest,
        List.append_nil]

end

mutual

/-- **The walk meets the parts of the mail in document order.** -/
theorem iterLeaves_eq (part : Part) : iterLeaves part = outerParts part := by
  match part with
  | .leaf .. => rfl
  | .multipart id contentType headers subparts =>
      show iterLeavesOfAll subparts = ((nodesOfAll false subparts).filter isOuter).map Prod.fst
      exact iterLeavesOfAll_eq subparts
  | .rfc822 id headers inner =>
      show [Part.rfc822 id headers inner] =
        Part.rfc822 id headers inner :: ((nodes true inner).filter isOuter).map Prod.fst
      rw [filter_nodes_true inner]
      rfl

theorem iterLeavesOfAll_eq (parts : List Part) :
    iterLeavesOfAll parts = ((nodesOfAll false parts).filter isOuter).map Prod.fst := by
  match parts with
  | [] => rfl
  | part :: rest =>
      rw [iterLeavesOfAll, nodesOfAll, List.filter_append, List.map_append, iterLeaves_eq part,
        iterLeavesOfAll_eq rest]
      rfl

end

/-! ### Bodies and attached parts -/

variable {message : MimeMessage} {part body : Part}

theorem mem_outerParts {root : Part} :
    part ∈ outerParts root ↔ (part, false) ∈ nodes false root ∧ part.isContainer = false := by
  unfold outerParts
  rw [List.mem_map]
  constructor
  · rintro ⟨⟨found, below⟩, hin, rfl⟩
    obtain ⟨hnode, houter⟩ := List.mem_filter.mp hin
    cases below with
    | true => simp [isOuter] at houter
    | false => exact ⟨hnode, by simpa [isOuter] using houter⟩
  · rintro ⟨hnode, hleaf⟩
    exact ⟨(part, false), List.mem_filter.mpr ⟨hnode, by simp [isOuter, hleaf]⟩, rfl⟩

theorem isContainer_of_isText (h : part.isText = true) : part.isContainer = false := by
  cases part with
  | leaf => rfl
  | multipart => cases h
  | rfc822 => rfl

theorem isBody_of_mem_bodies (h : body ∈ message.bodies) : IsBody message.root body := by
  rcases List.mem_append.mp h with hin | hin
  · exact message.html_isBody body (Option.mem_toList.mp hin)
  · exact message.text_isBody body (Option.mem_toList.mp hin)

theorem mem_outerParts_of_mem_bodies (h : body ∈ message.bodies) :
    body ∈ outerParts message.root := by
  obtain ⟨hnode, htext⟩ := isBody_of_mem_bodies h
  exact mem_outerParts.mpr ⟨hnode, isContainer_of_isText htext⟩

theorem nodup_outerIds (message : MimeMessage) :
    ((outerParts message.root).map Part.id).Nodup := by
  rw [outerParts, List.map_map]
  exact message.nodup_ids.sublist (List.filter_sublist.map _)

theorem nodup_bodies (message : MimeMessage) : message.bodies.Nodup := by
  have hoption : ∀ found : Option Part, found.toList.Nodup := by
    intro found
    cases found <;> simp
  refine List.nodup_append.mpr ⟨hoption _, hoption _, ?_⟩
  rintro a ha b hb rfl
  exact message.html_ne_text a (Option.mem_toList.mp ha) (Option.mem_toList.mp hb)

/-- Parts that are one object are one node. -/
theorem eq_of_id_eq (hpart : part ∈ outerParts message.root)
    (hbody : body ∈ outerParts message.root) (h : part.id = body.id) : part = body :=
  List.inj_on_of_nodup_map (nodup_outerIds message) hpart hbody h

theorem mem_attachedParts :
    part ∈ attachedParts message ↔ part ∈ outerParts message.root ∧ part ∉ message.bodies := by
  unfold attachedParts
  rw [List.mem_filter, decide_eq_true_iff]
  refine and_congr_right fun hpart => not_congr ?_
  constructor
  · intro hid
    obtain ⟨body, hbody, heq⟩ := List.mem_map.mp hid
    rwa [eq_of_id_eq hpart (mem_outerParts_of_mem_bodies hbody) heq.symm]
  · exact List.mem_map_of_mem

/-- **Bodies and attached parts together are the parts of the mail.** -/
theorem attachedParts_append_bodies (message : MimeMessage) :
    (attachedParts message ++ message.bodies).Perm (outerParts message.root) := by
  have houter : (outerParts message.root).Nodup := (nodup_outerIds message).of_map
  have hdisjoint : ∀ a ∈ attachedParts message, ∀ b ∈ message.bodies, a ≠ b := by
    rintro a ha b hb rfl
    exact (mem_attachedParts.mp ha).2 hb
  have hnodup : (attachedParts message ++ message.bodies).Nodup :=
    List.nodup_append.mpr ⟨houter.filter _, nodup_bodies message, hdisjoint⟩
  refine (List.perm_ext_iff_of_nodup hnodup houter).mpr ?_
  intro a
  rw [List.mem_append, mem_attachedParts]
  constructor
  · rintro (hattached | hbody)
    · exact hattached.1
    · exact mem_outerParts_of_mem_bodies hbody
  · intro ha
    by_cases hbody : a ∈ message.bodies
    · exact Or.inr hbody
    · exact Or.inl ⟨ha, hbody⟩

/-! ### What an attachment stands for -/

/-- The attachment is of this part, and of the whole of it, under its own name or a number. -/
structure Represents (email : EmailLibrary) (numbered : Part × Nat) (a : Attachment) : Prop where
  type : a.type = numbered.1.contentType
  own : ∀ id contentType headers payload, numbered.1 = .leaf id contentType headers payload →
    Base64.decode a.content = some (payload.getD [])
  whole : ∀ id headers inner, numbered.1 = .rfc822 id headers inner →
    ∃ bytes, email.asBytes inner = .ok bytes ∧ Base64.decode a.content = some bytes
  named : ∀ name, numbered.1.headers.filename = some name → name ≠ [] → a.filename = name
  generated : numbered.1.headers.filename.getD [] = [] →
    a.filename = generatedName email numbered.1.contentType numbered.2

variable {email : EmailLibrary} {index : Nat} {a : Attachment}

theorem attachment_isOk_iff (index : Nat) :
    (∃ a, attachment email part index = .ok a) ↔
      ∃ bytes, attachmentContent email part = .ok bytes := by
  unfold attachment
  cases attachmentContent email part with
  | error e => simp [bind, Except.bind]
  | ok bytes => exact iff_of_true ⟨_, rfl⟩ ⟨_, rfl⟩

theorem represents_attachment (h : attachment email part index = .ok a) :
    Represents email (part, index) a := by
  obtain ⟨bytes, hbytes⟩ := (attachment_isOk_iff index).mp ⟨a, h⟩
  unfold attachment at h
  rw [hbytes] at h
  cases h
  refine ⟨rfl, ?_, ?_, ?_, ?_⟩
  · rintro id contentType headers payload rfl
    cases hbytes
    exact Base64.decode_encode _
  · rintro id headers inner rfl
    exact ⟨bytes, hbytes, Base64.decode_encode bytes⟩
  · intro name hname hne
    show (if _ = [] then _ else _) = name
    rw [hname, if_neg]
    · rfl
    · exact hne
  · intro hnone
    exact if_pos hnone

/-! ### The loop -/

/-- **The loop attaches what is no body, numbered by its place.** -/
theorem foldlM_attachLeaf_iff {bodyParts : List Nat} {parts : List Part}
    {acc result : List Attachment} :
    parts.foldlM (attachLeaf email bodyParts) acc = .ok result ↔
      ∃ added, result = acc ++ added ∧
        List.Forall₂ (fun numbered a => attachment email numbered.1 numbered.2 = .ok a)
          ((parts.filter fun part => part.id ∉ bodyParts).zipIdx (acc.length + 1)) added := by
  induction parts generalizing acc with
  | nil =>
      constructor
      · intro h
        cases h
        exact ⟨[], (List.append_nil _).symm, .nil⟩
      · rintro ⟨added, rfl, hadded⟩
        cases hadded
        rw [List.append_nil]
        rfl
  | cons part rest ih =>
      rw [List.foldlM_cons]
      by_cases hbody : part.id ∈ bodyParts
      · have hstep : attachLeaf email bodyParts acc part = .ok acc := if_pos hbody
        rw [hstep, List.filter_cons_of_neg (by simpa using hbody)]
        exact ih
      · have hstep : attachLeaf email bodyParts acc part =
            (attachment email part (acc.length + 1)).map fun next => acc ++ [next] := by
          unfold attachLeaf
          rw [if_neg hbody]
          cases attachment email part (acc.length + 1) <;> rfl
        rw [hstep, List.filter_cons_of_pos (by simpa using hbody), List.zipIdx_cons]
        cases hnext : attachment email part (acc.length + 1) with
        | error e =>
            refine iff_of_false (fun h => nomatch h) ?_
            rintro ⟨added, -, hadded⟩
            cases hadded with
            | cons hhead _ => exact nomatch hnext.symm.trans hhead
        | ok next =>
            show rest.foldlM (attachLeaf email bodyParts) (acc ++ [next]) = .ok result ↔ _
            rw [ih, List.length_append]
            constructor
            · rintro ⟨added, rfl, hadded⟩
              exact ⟨next :: added, by simp, .cons hnext hadded⟩
            · rintro ⟨added, rfl, hadded⟩
              cases hadded with
              | @cons _ head _ tail hhead htail =>
                  have heq : next = head := Except.ok.inj (hnext.symm.trans hhead)
                  exact ⟨tail, by simp [heq], htail⟩

/-! ### Generated names -/

theorem toDigits_inj {i j : Nat} (h : Nat.toDigits 10 i = Nat.toDigits 10 j) : i = j := by
  rw [← Nat.ofDigitChars_ten_toDigits (n := i), h, Nat.ofDigitChars_ten_toDigits]

/-- The number in a generated name, whatever comes behind it. -/
theorem takeWhile_generated (email : EmailLibrary) (contentType : Str) (i : Nat) :
    (Nat.toDigits 10 i ++ (email.guessExtension contentType).getD []).takeWhile Char.isDigit =
      Nat.toDigits 10 i := by
  have hdigits : ∀ c ∈ Nat.toDigits 10 i, c.isDigit = true :=
    fun c hc => Nat.isDigit_of_mem_toDigits (by decide) (by decide) hc
  rw [List.takeWhile_append_of_pos hdigits]
  cases hguess : email.guessExtension contentType with
  | none => simp
  | some extension =>
      obtain ⟨rest, rfl⟩ := email.guessExtension_dot contentType extension hguess
      show Nat.toDigits 10 i ++ List.takeWhile Char.isDigit ('.' :: rest) = _
      rw [List.takeWhile_cons_of_neg (by decide), List.append_nil]

/-- **Generated names tell the positions apart.** -/
theorem generatedName_inj {s t : Str} {i j : Nat}
    (h : generatedName email s i = generatedName email t j) : i = j := by
  unfold generatedName at h
  rw [List.append_assoc, List.append_assoc] at h
  have hdigits := congrArg (List.takeWhile Char.isDigit) (List.append_cancel_left h)
  rw [takeWhile_generated, takeWhile_generated] at hdigits
  exact toDigits_inj hdigits

/-! ### The whole content -/

variable {content : Content}

/-- What the content is put together from. -/
theorem extractContent_eq_ok_iff :
    extractContent email message = .ok content ↔
      bodyText email message.textPart = .ok content.text ∧
        bodyText email message.htmlPart = .ok content.html ∧
        List.Forall₂ (fun numbered a => attachment email numbered.1 numbered.2 = .ok a)
          ((attachedParts message).zipIdx 1) content.attachments := by
  have hloop : ∀ result,
      (iterLeaves message.root).foldlM (attachLeaf email (message.bodies.map Part.id)) [] =
          .ok result ↔
        List.Forall₂ (fun numbered a => attachment email numbered.1 numbered.2 = .ok a)
          ((attachedParts message).zipIdx 1) result := by
    intro result
    rw [foldlM_attachLeaf_iff, iterLeaves_eq]
    constructor
    · rintro ⟨added, rfl, hadded⟩
      exact hadded
    · intro hresult
      exact ⟨result, rfl, hresult⟩
  rw [← hloop]
  unfold extractContent
  obtain ⟨text, html, attachments⟩ := content
  cases bodyText email message.textPart with
  | error e => exact iff_of_false (fun h => nomatch h) fun h => nomatch h.1
  | ok found =>
      cases bodyText email message.htmlPart with
      | error e => exact iff_of_false (fun h => nomatch h) fun h => nomatch h.2.1
      | ok foundHtml =>
          cases hfold : (iterLeaves message.root).foldlM
              (attachLeaf email (message.bodies.map Part.id)) [] with
          | error e => simp [bind, Except.bind, hfold]
          | ok found => simp [bind, Except.bind, pure, Except.pure, hfold]

/-- The content is there when the library answers for the bodies and the attached parts. -/
theorem extractContent_isOk_iff :
    (∃ content, extractContent email message = .ok content) ↔
      (∃ text, bodyText email message.textPart = .ok text) ∧
        (∃ html, bodyText email message.htmlPart = .ok html) ∧
        ∀ part ∈ attachedParts message, ∃ bytes, attachmentContent email part = .ok bytes := by
  have hall : ∀ (parts : List Part) (i : Nat),
      (∃ attachments, List.Forall₂
        (fun numbered a => attachment email numbered.1 numbered.2 = .ok a)
          (parts.zipIdx i) attachments) ↔
        ∀ part ∈ parts, ∃ bytes, attachmentContent email part = .ok bytes := by
    intro parts
    induction parts with
    | nil => simp
    | cons part rest ih =>
        intro i
        rw [List.forall_mem_cons, ← attachment_isOk_iff i, ← ih (i + 1),
          List.zipIdx_cons]
        constructor
        · rintro ⟨attachments, hattachments⟩
          cases hattachments with
          | cons hhead htail => exact ⟨⟨_, hhead⟩, _, htail⟩
        · rintro ⟨⟨head, hhead⟩, tail, htail⟩
          exact ⟨head :: tail, .cons hhead htail⟩
  rw [← hall _ 1]
  constructor
  · rintro ⟨content, hcontent⟩
    obtain ⟨htext, hhtml, hattachments⟩ := extractContent_eq_ok_iff.mp hcontent
    exact ⟨⟨_, htext⟩, ⟨_, hhtml⟩, _, hattachments⟩
  · rintro ⟨⟨text, htext⟩, ⟨html, hhtml⟩, attachments, hattachments⟩
    exact ⟨⟨text, html, attachments⟩, extractContent_eq_ok_iff.mpr ⟨htext, hhtml, hattachments⟩⟩

/--
**No part of a mail is lost or sent twice.**  The attachments stand, in order, for the
parts of the mail in document order without the two bodies; no part is there twice, an
attached message is one attachment made of the whole of it, and a part without a name is
numbered by its place, so that no two of them have one number.
-/
theorem extractContent_parts (email : EmailLibrary) (message : MimeMessage) {content : Content}
    (h : extractContent email message = .ok content) :
    List.Forall₂ (Represents email) ((attachedParts message).zipIdx 1) content.attachments ∧
      (attachedParts message).Sublist (outerParts message.root) ∧
      (attachedParts message ++ message.bodies).Perm (outerParts message.root) ∧
      ((outerParts message.root).map Part.id).Nodup ∧
      ∀ s t i j, generatedName email s i = generatedName email t j → i = j := by
  obtain ⟨-, -, hattachments⟩ := extractContent_eq_ok_iff.mp h
  refine ⟨?_, List.filter_sublist, attachedParts_append_bodies message, nodup_outerIds message, ?_⟩
  · refine hattachments.imp ?_
    intro numbered a ha
    exact represents_attachment ha
  · intro s t i j
    exact generatedName_inj

/-! A mail with both bodies, a forwarded message and an image, neither with a name. -/

def noHeaders : PartHeaders := ⟨none, none, none⟩

def plainType (s : String) (h : s.toList ≠ MESSAGE_RFC822) : PlainType := ⟨s.toList, h⟩

def plainLeaf (id : Nat) : Part :=
  .leaf id (plainType "text/plain" (by decide)) noHeaders (some (utf8 "hi".toList))

def htmlLeaf : Part :=
  .leaf 3 (plainType "text/html" (by decide)) noHeaders (some (utf8 "<p>hi".toList))

def imageLeaf : Part := .leaf 6 (plainType "image/png" (by decide)) noHeaders (some [0x89, 0x50])

def forwardingRoot : Part :=
  .multipart 0 (plainType "multipart/mixed" (by decide)) noHeaders [
    .multipart 1 (plainType "multipart/alternative" (by decide)) noHeaders [plainLeaf 2, htmlLeaf],
    .rfc822 4 noHeaders (plainLeaf 5),
    imageLeaf]

def forwardingMail : MimeMessage where
  items := []
  root := forwardingRoot
  htmlPart := some htmlLeaf
  textPart := some (plainLeaf 2)
  nodup_ids := by decide
  html_isBody := by
    rintro part ⟨⟩
    exact ⟨.tail _ (.tail _ (.tail _ (.head _))), by decide⟩
  text_isBody := by
    rintro part ⟨⟩
    exact ⟨.tail _ (.tail _ (.head _)), by decide⟩
  html_ne_text := by
    rintro part ⟨⟩ htext
    exact absurd (congrArg Part.id (Option.some.inj htext)) (by decide)

/-- The library as it is for these parts. -/
def sampleEmail : EmailLibrary where
  asBytes
    | .leaf _ contentType _ payload =>
      .ok (utf8 ("Content-Type: ".toList ++ contentType ++ "\n\n".toList) ++ payload.getD [])
    | _ => .error .attributeError
  getContent
    | .leaf _ _ _ payload => .ok (ofStr (decodeReplace (payload.getD [])))
    | _ => .error .keyError
  guessExtension contentType :=
    if contentType = "image/png".toList then some ".png".toList else none
  guessExtension_dot := by
    intro contentType extension h
    split at h
    · cases h
      exact ⟨"png".toList, rfl⟩
    · cases h

def forwardingContent : Content where
  text := some (text "hi")
  html := some (text "<p>hi")
  attachments := [
    { content := "Q29udGVudC1UeXBlOiB0ZXh0L3BsYWluCgpoaQ==".toList
      filename := "attachment-1".toList
      type := MESSAGE_RFC822
      disposition := .attachment
      contentId := none },
    { content := "iVA=".toList
      filename := "attachment-2.png".toList
      type := "image/png".toList
      disposition := .attachment
      contentId := none }]

theorem extractContent_parts_forwarding :
    List.Forall₂ (Represents sampleEmail) ((attachedParts forwardingMail).zipIdx 1)
      forwardingContent.attachments := by
  have hcontent : extractContent sampleEmail forwardingMail = .ok forwardingContent := rfl
  exact (extractContent_parts sampleEmail forwardingMail hcontent).1

end MailCloudflare

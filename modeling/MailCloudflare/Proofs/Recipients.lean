/-
Who receives a message, and under which header.

Addresses are compared in lower case, so everything is said of the lower-cased addresses:
those of the envelope, and those the To and the Cc header name.  The set `seen` the three
lists share comes to this: To takes what it names, Cc what it names and To does not, and
what neither names is left for Bcc (`IsSplit`).  Together they are the envelope, each
address once, whatever the headers name besides.

Then a lone address left for Bcc becomes the `to` when that is empty.  Nothing asks
whether there is a Cc, and that is the one way in which somebody hidden is shown to others.
-/
import MailCloudflare.Odoo.Recipients
import MailCloudflare.Proofs.Signature
import Mathlib.Data.List.Dedup

namespace MailCloudflare

open Unicode Python Keyed

variable {py : UnicodeData} {emailSplitTuples : Str → List (Str × Str)} {message : Message}
  {smtpToList : List Str}

/-! ### The addresses -/

/-- The lower-cased addresses of a list of address objects. -/
def addressKeys (py : UnicodeData) (addresses : List Address) : List Str :=
  addresses.map fun a => py.lower a.address

/-- The distinct lower-cased addresses of the envelope. -/
def envelopeKeys (py : UnicodeData) (smtpToList : List Str) : List Str :=
  (smtpToList.map py.lower).dedup

/-- The lower-cased addresses a header names. -/
def namedKeys (py : UnicodeData) (emailSplitTuples : Str → List (Str × Str)) (message : Message)
    (header : Str) : List Str :=
  (emailSplitTuples (message.text py header)).map fun pair => py.lower pair.2

theorem addressKeys_append (as bs : List Address) :
    addressKeys py (as ++ bs) = addressKeys py as ++ addressKeys py bs :=
  List.map_append

private theorem mem_keys_foldl (t : Envelope) (addresses : List Str) {k : Str} :
    k ∈ (addresses.foldl (fun envelope address =>
        envelope.insertOrIgnore (py.lower address, address)) t).rows.map Prod.fst ↔
      k ∈ t.rows.map Prod.fst ∨ k ∈ addresses.map py.lower := by
  induction addresses generalizing t with
  | nil => simp
  | cons a rest ih =>
      rw [List.foldl_cons, ih, Table.mem_keys_insertOrIgnore, List.map_cons, List.mem_cons, or_assoc]

theorem isSome_envelopeOf {k : Str} :
    ((envelopeOf py smtpToList).get? k).isSome ↔ k ∈ envelopeKeys py smtpToList := by
  rw [Table.isSome_get?_iff, envelopeOf, mem_keys_foldl, envelopeKeys, List.mem_dedup]
  simp

private theorem lower_foldl : ∀ (addresses : List Str) (t : Envelope),
    (∀ row ∈ t.rows, py.lower row.2 = row.1) →
      ∀ row ∈ (addresses.foldl (fun envelope address =>
        envelope.insertOrIgnore (py.lower address, address)) t).rows, py.lower row.2 = row.1 := by
  intro addresses
  induction addresses with
  | nil => exact fun t ht => ht
  | cons a rest ih =>
      intro t ht
      refine ih _ ?_
      intro row hrow
      rcases Table.mem_insertOrIgnore hrow with hin | rfl
      · exact ht row hin
      · rfl

/-- An address of the envelope is spelled as one of the list. -/
theorem lower_of_mem_envelopeOf {row : Str × Str} (h : row ∈ (envelopeOf py smtpToList).rows) :
    py.lower row.2 = row.1 :=
  lower_foldl smtpToList .empty (by simp) row h

/-! ### Taking the addresses of a header -/

/-- What has been taken of the pairs `done`, when `seen` was taken before. -/
structure Taken (py : UnicodeData) (envelope : Envelope) (seen : List Str)
    (done : List (Str × Str)) (taken : List Str × List Address) : Prop where
  nodup : (addressKeys py taken.2).Nodup
  mem : ∀ k, k ∈ addressKeys py taken.2 ↔
    (envelope.get? k).isSome ∧ k ∈ done.map (fun pair => py.lower pair.2) ∧ k ∉ seen
  seen : ∀ k, k ∈ taken.1 ↔ k ∈ seen ∨ k ∈ addressKeys py taken.2

theorem taken_step {envelope : Envelope} {seen : List Str} {done : List (Str × Str)}
    {taken : List Str × List Address} (h : Taken py envelope seen done taken) (pair : Str × Str) :
    Taken py envelope seen (done ++ [pair]) (takePair py envelope taken pair) := by
  have hdone : ∀ k, k ∈ (done ++ [pair]).map (fun pair => py.lower pair.2) ↔
      k ∈ done.map (fun pair => py.lower pair.2) ∨ k = py.lower pair.2 := by
    intro k
    simp
  unfold takePair
  dsimp only
  split
  · rename_i htake
    obtain ⟨henvelope, hseen⟩ := htake
    have hkeys : addressKeys py (taken.2 ++ [toAddress pair]) =
        addressKeys py taken.2 ++ [py.lower pair.2] := addressKeys_append _ _
    rw [h.seen, not_or] at hseen
    refine ⟨?_, ?_, ?_⟩
    · rw [hkeys]
      exact h.nodup.append (List.nodup_singleton _) (by simpa using hseen.2)
    · intro k
      rw [hkeys, List.mem_append, h.mem, List.mem_singleton, hdone]
      constructor
      · rintro (⟨hk, hin, hnew⟩ | rfl)
        · exact ⟨hk, Or.inl hin, hnew⟩
        · exact ⟨henvelope, Or.inr rfl, hseen.1⟩
      · rintro ⟨hk, hin | rfl, hnew⟩
        · exact Or.inl ⟨hk, hin, hnew⟩
        · exact Or.inr rfl
    · intro k
      rw [hkeys, List.mem_cons, h.seen, List.mem_append, List.mem_singleton, or_comm, or_assoc]
  · rename_i hskip
    rw [h.seen, not_and, not_not] at hskip
    refine ⟨h.nodup, ?_, h.seen⟩
    intro k
    rw [h.mem, hdone]
    constructor
    · rintro ⟨hk, hin, hnew⟩
      exact ⟨hk, Or.inl hin, hnew⟩
    · rintro ⟨hk, hin | rfl, hnew⟩
      · exact ⟨hk, hin, hnew⟩
      · -- An address that is skipped has been taken already.
        exact (h.mem _).mp ((hskip hk).resolve_left hnew)

theorem taken_fold {envelope : Envelope} {seen : List Str} :
    ∀ (pairs done : List (Str × Str)) (taken : List Str × List Address),
      Taken py envelope seen done taken →
        Taken py envelope seen (done ++ pairs) (pairs.foldl (takePair py envelope) taken) := by
  intro pairs
  induction pairs with
  | nil =>
      intro done taken h
      rwa [List.append_nil]
  | cons pair rest ih =>
      intro done taken h
      have hrest := ih _ _ (taken_step h pair)
      rwa [List.append_assoc] at hrest

variable (py emailSplitTuples message) in
theorem taken_take (envelope : Envelope) (seen : List Str) (header : Str) :
    Taken py envelope seen (emailSplitTuples (message.text py header))
      (take py emailSplitTuples message envelope seen header) :=
  taken_fold _ [] (seen, []) ⟨List.nodup_nil, by simp [addressKeys], by simp [addressKeys]⟩

/-! ### What is left for Bcc -/

/-- The addresses of the envelope that have not been seen. -/
private def unseen (envelope : Envelope) (seen : List Str) : List Address :=
  (envelope.rows.filter fun row => row.1 ∉ seen).map fun row => toAddress ([], row.2)

private theorem addressKeys_unseen (seen : List Str) :
    addressKeys py (unseen (envelopeOf py smtpToList) seen) =
      ((envelopeOf py smtpToList).rows.filter fun row => row.1 ∉ seen).map Prod.fst := by
  unfold addressKeys unseen
  rw [List.map_map]
  exact List.map_congr_left fun row hrow =>
    lower_of_mem_envelopeOf (List.mem_of_mem_filter hrow)

private theorem mem_unseen {seen : List Str} {k : Str} :
    k ∈ addressKeys py (unseen (envelopeOf py smtpToList) seen) ↔
      k ∈ envelopeKeys py smtpToList ∧ k ∉ seen := by
  rw [addressKeys_unseen, ← isSome_envelopeOf, Table.isSome_get?_iff]
  simp [List.mem_filter]

private theorem nodup_unseen (seen : List Str) :
    (addressKeys py (unseen (envelopeOf py smtpToList) seen)).Nodup := by
  rw [addressKeys_unseen]
  exact (envelopeOf py smtpToList).nodup.sublist (List.filter_sublist.map Prod.fst)

/-! ### The three lists -/

variable (py emailSplitTuples message smtpToList) in
/-- In the envelope, and named by neither header. -/
def Hidden (k : Str) : Prop :=
  k ∈ envelopeKeys py smtpToList ∧ k ∉ namedKeys py emailSplitTuples message "To".toList ∧
    k ∉ namedKeys py emailSplitTuples message "Cc".toList

variable (py emailSplitTuples message smtpToList) in
/-- The envelope, dealt out by header. -/
structure IsSplit (r : Recipients) : Prop where
  mem_to : ∀ k, k ∈ addressKeys py r.toList ↔ k ∈ envelopeKeys py smtpToList ∧
    k ∈ namedKeys py emailSplitTuples message "To".toList
  mem_cc : ∀ k, k ∈ addressKeys py r.ccList ↔ k ∈ envelopeKeys py smtpToList ∧
    k ∉ namedKeys py emailSplitTuples message "To".toList ∧
    k ∈ namedKeys py emailSplitTuples message "Cc".toList
  mem_bcc : ∀ k, k ∈ addressKeys py r.bccList ↔ Hidden py emailSplitTuples message smtpToList k
  nodup_to : (addressKeys py r.toList).Nodup
  nodup_cc : (addressKeys py r.ccList).Nodup
  nodup_bcc : (addressKeys py r.bccList).Nodup

namespace IsSplit

variable {r : Recipients}

theorem toList_eq_nil_iff (h : IsSplit py emailSplitTuples message smtpToList r) :
    r.toList = [] ↔ ∀ k ∈ envelopeKeys py smtpToList,
      k ∉ namedKeys py emailSplitTuples message "To".toList := by
  constructor
  · intro hempty k hk hnamed
    have hto := (h.mem_to k).mpr ⟨hk, hnamed⟩
    rw [hempty] at hto
    cases hto
  · intro hnone
    rw [List.eq_nil_iff_forall_not_mem]
    intro b hb
    obtain ⟨hk, hnamed⟩ := (h.mem_to _).mp (List.mem_map_of_mem hb)
    exact hnone _ hk hnamed

theorem ccList_eq_nil_iff (h : IsSplit py emailSplitTuples message smtpToList r) :
    r.ccList = [] ↔ ∀ k ∈ envelopeKeys py smtpToList,
      k ∉ namedKeys py emailSplitTuples message "To".toList →
        k ∉ namedKeys py emailSplitTuples message "Cc".toList := by
  constructor
  · intro hempty k hk hto hnamed
    have hcc := (h.mem_cc k).mpr ⟨hk, hto, hnamed⟩
    rw [hempty] at hcc
    cases hcc
  · intro hnone
    rw [List.eq_nil_iff_forall_not_mem]
    intro b hb
    obtain ⟨hk, hto, hnamed⟩ := (h.mem_cc _).mp (List.mem_map_of_mem hb)
    exact hnone _ hk hto hnamed

theorem hidden_iff_of_singleton (h : IsSplit py emailSplitTuples message smtpToList r) {a : Address}
    (hbcc : r.bccList = [a]) {k : Str} :
    Hidden py emailSplitTuples message smtpToList k ↔ k = py.lower a.address := by
  rw [← h.mem_bcc, hbcc, addressKeys, List.map_singleton, List.mem_singleton]

/-- One address is left for Bcc exactly when one is hidden. -/
theorem length_bccList_eq_one_iff (h : IsSplit py emailSplitTuples message smtpToList r) :
    r.bccList.length = 1 ↔ ∃! k, Hidden py emailSplitTuples message smtpToList k := by
  constructor
  · intro hone
    obtain ⟨a, hbcc⟩ := List.length_eq_one_iff.mp hone
    exact ⟨py.lower a.address, (h.hidden_iff_of_singleton hbcc).mpr rfl,
      fun k hk => (h.hidden_iff_of_singleton hbcc).mp hk⟩
  · rintro ⟨k, hhidden, honly⟩
    have hperm : (addressKeys py r.bccList).Perm [k] := by
      refine (List.perm_ext_iff_of_nodup h.nodup_bcc (List.nodup_singleton k)).mpr ?_
      intro x
      rw [h.mem_bcc, List.mem_singleton]
      exact ⟨honly x, fun heq => heq ▸ hhidden⟩
    simpa [addressKeys] using hperm.length_eq

/-- Before the promotion nobody hidden is visible. -/
theorem not_visible_of_hidden (h : IsSplit py emailSplitTuples message smtpToList r) {k : Str}
    (hhidden : Hidden py emailSplitTuples message smtpToList k) :
    k ∉ addressKeys py (r.toList ++ r.ccList) := by
  rw [addressKeys_append, List.mem_append]
  rintro (hto | hcc)
  · exact hhidden.2.1 ((h.mem_to k).mp hto).2
  · exact hhidden.2.2 ((h.mem_cc k).mp hcc).2.2

end IsSplit

/-- To takes what it names, Cc what is left of what it names, and the rest is for Bcc. -/
private theorem isSplit_of_taken {takenTo takenCc : List Str × List Address}
    (hto : Taken py (envelopeOf py smtpToList) [] (emailSplitTuples (message.text py "To".toList))
      takenTo)
    (hcc : Taken py (envelopeOf py smtpToList) takenTo.1
      (emailSplitTuples (message.text py "Cc".toList)) takenCc) :
    IsSplit py emailSplitTuples message smtpToList
      ⟨takenTo.2, takenCc.2, unseen (envelopeOf py smtpToList) takenCc.1⟩ := by
  have hmemTo : ∀ k, k ∈ addressKeys py takenTo.2 ↔ k ∈ envelopeKeys py smtpToList ∧
      k ∈ namedKeys py emailSplitTuples message "To".toList := by
    intro k
    rw [hto.mem, isSome_envelopeOf]
    simp [namedKeys]
  have hseenTo : ∀ k, k ∈ takenTo.1 ↔ k ∈ addressKeys py takenTo.2 := by
    intro k
    rw [hto.seen]
    simp
  have hmemCc : ∀ k, k ∈ addressKeys py takenCc.2 ↔ k ∈ envelopeKeys py smtpToList ∧
      k ∉ namedKeys py emailSplitTuples message "To".toList ∧
      k ∈ namedKeys py emailSplitTuples message "Cc".toList := by
    intro k
    rw [hcc.mem, isSome_envelopeOf, hseenTo, hmemTo]
    constructor
    · rintro ⟨hk, hnamed, hfree⟩
      exact ⟨hk, fun h => hfree ⟨hk, h⟩, hnamed⟩
    · rintro ⟨hk, hfree, hnamed⟩
      exact ⟨hk, hnamed, fun h => hfree h.2⟩
  refine ⟨hmemTo, hmemCc, ?_, hto.nodup, hcc.nodup, nodup_unseen _⟩
  intro k
  rw [mem_unseen, hcc.seen, hseenTo, hmemTo, hmemCc, Hidden]
  tauto

variable (py emailSplitTuples message smtpToList) in
/-- The lists before the promotion, and what the promotion makes of them. -/
theorem recipientsOf_eq :
    ∃ r, IsSplit py emailSplitTuples message smtpToList r ∧
      recipientsOf py emailSplitTuples message smtpToList =
        if r.toList = [] ∧ r.bccList.length = 1 then ⟨r.bccList, r.ccList, []⟩ else r :=
  ⟨_, isSplit_of_taken (taken_take py emailSplitTuples message _ [] "To".toList)
    (taken_take py emailSplitTuples message _ _ "Cc".toList), rfl⟩

theorem IsSplit.perm {r : Recipients} (h : IsSplit py emailSplitTuples message smtpToList r) :
    (addressKeys py (r.toList ++ r.ccList ++ r.bccList)).Perm (envelopeKeys py smtpToList) := by
  have hnodup : (addressKeys py (r.toList ++ r.ccList ++ r.bccList)).Nodup := by
    rw [addressKeys_append, addressKeys_append]
    refine (h.nodup_to.append h.nodup_cc ?_).append h.nodup_bcc ?_
    · intro k hto hcc
      exact ((h.mem_cc k).mp hcc).2.1 ((h.mem_to k).mp hto).2
    · intro k hvisible hbcc
      rw [← addressKeys_append] at hvisible
      exact h.not_visible_of_hidden ((h.mem_bcc k).mp hbcc) hvisible
  refine (List.perm_ext_iff_of_nodup hnodup (List.nodup_dedup _)).mpr ?_
  intro k
  rw [addressKeys_append, addressKeys_append, List.mem_append, List.mem_append, h.mem_to, h.mem_cc,
    h.mem_bcc, Hidden]
  unfold envelopeKeys
  tauto

variable (py emailSplitTuples message smtpToList) in
/-- The promotion moves an address from one list to another. -/
theorem recipientsOf_perm :
    (addressKeys py ((recipientsOf py emailSplitTuples message smtpToList).toList ++
        (recipientsOf py emailSplitTuples message smtpToList).ccList ++
        (recipientsOf py emailSplitTuples message smtpToList).bccList)).Perm
      (envelopeKeys py smtpToList) := by
  obtain ⟨r, hsplit, heq⟩ := recipientsOf_eq py emailSplitTuples message smtpToList
  rw [heq]
  split
  · rename_i hlone
    have hperm := hsplit.perm
    rw [hlone.1, List.nil_append] at hperm
    refine List.Perm.trans ?_ hperm
    rw [List.append_nil, addressKeys_append, addressKeys_append]
    exact List.perm_append_comm
  · exact hsplit.perm

/-- A request is made exactly when the envelope has one to fifty addresses. -/
theorem splitRecipients_ok_iff {r : Recipients} :
    splitRecipients py emailSplitTuples message smtpToList = .ok r ↔
      r = recipientsOf py emailSplitTuples message smtpToList ∧
        0 < (envelopeKeys py smtpToList).length ∧
        (envelopeKeys py smtpToList).length ≤ MAX_RECIPIENTS := by
  have htotal : (recipientsOf py emailSplitTuples message smtpToList).toList.length +
      (recipientsOf py emailSplitTuples message smtpToList).ccList.length +
      (recipientsOf py emailSplitTuples message smtpToList).bccList.length =
        (envelopeKeys py smtpToList).length := by
    rw [← (recipientsOf_perm py emailSplitTuples message smtpToList).length_eq]
    simp [addressKeys, Nat.add_assoc]
  unfold splitRecipients
  dsimp only
  rw [htotal]
  split
  · rename_i hzero
    exact iff_of_false (by simp) fun h => absurd h.2.1 (by omega)
  · rename_i hpos
    split
    · rename_i hmany
      exact iff_of_false (by simp) fun h => absurd h.2.2 (by omega)
    · rename_i hfew
      rw [Except.ok.injEq]
      exact ⟨fun h => ⟨h.symm, by omega, by omega⟩, fun h => h.1.symm⟩

/-- The lists of a request, before the promotion and after it. -/
private theorem split_of_ok {r : Recipients}
    (h : splitRecipients py emailSplitTuples message smtpToList = .ok r) :
    ∃ s, IsSplit py emailSplitTuples message smtpToList s ∧
      r = if s.toList = [] ∧ s.bccList.length = 1 then ⟨s.bccList, s.ccList, []⟩ else s := by
  obtain ⟨s, hsplit, heq⟩ := recipientsOf_eq py emailSplitTuples message smtpToList
  exact ⟨s, hsplit, (splitRecipients_ok_iff.mp h).1.trans heq⟩

/-! ### The envelope decides -/

variable (py emailSplitTuples message smtpToList) in
/-- Each envelope address is where the headers put it. -/
def PlacedAsNamed (r : Recipients) : Prop :=
  ∀ k ∈ envelopeKeys py smtpToList,
    (k ∈ namedKeys py emailSplitTuples message "To".toList → k ∈ addressKeys py r.toList) ∧
    (k ∉ namedKeys py emailSplitTuples message "To".toList →
      k ∈ namedKeys py emailSplitTuples message "Cc".toList → k ∈ addressKeys py r.ccList) ∧
    (Hidden py emailSplitTuples message smtpToList k →
      k ∈ addressKeys py r.bccList ∨
        addressKeys py r.toList = [k] ∧
          (∀ x ∈ envelopeKeys py smtpToList, x ∉ namedKeys py emailSplitTuples message "To".toList) ∧
          ∀ x, Hidden py emailSplitTuples message smtpToList x → x = k)

theorem placedAsNamed_of_ok {r : Recipients}
    (h : splitRecipients py emailSplitTuples message smtpToList = .ok r) :
    PlacedAsNamed py emailSplitTuples message smtpToList r := by
  obtain ⟨s, hsplit, rfl⟩ := split_of_ok h
  intro k hk
  split
  · rename_i hlone
    obtain ⟨hempty, a, hbcc⟩ := hlone.imp_right List.length_eq_one_iff.mp
    have hnone := hsplit.toList_eq_nil_iff.mp hempty
    have honly := fun x => hsplit.hidden_iff_of_singleton hbcc (k := x)
    refine ⟨fun hto => absurd hto (hnone k hk), fun hto hcc => (hsplit.mem_cc k).mpr ⟨hk, hto, hcc⟩,
      ?_⟩
    intro hhidden
    refine Or.inr ⟨?_, hnone, ?_⟩
    · rw [hbcc, (honly k).mp hhidden]
      rfl
    · intro x hx
      rw [(honly x).mp hx, (honly k).mp hhidden]
  · exact ⟨fun hto => (hsplit.mem_to k).mpr ⟨hk, hto⟩,
      fun hto hcc => (hsplit.mem_cc k).mpr ⟨hk, hto, hcc⟩,
      fun hhidden => Or.inl ((hsplit.mem_bcc k).mpr hhidden)⟩

variable (py emailSplitTuples message smtpToList) in
/--
**The envelope alone decides who receives the mail, each person once**: `_split_recipients`
raises exactly when the envelope has no address or more than fifty, and otherwise deals it out.
-/
theorem splitRecipients_envelope :
    ((∃ e, splitRecipients py emailSplitTuples message smtpToList = .error e) ↔
      (envelopeKeys py smtpToList).length = 0 ∨
        MAX_RECIPIENTS < (envelopeKeys py smtpToList).length) ∧
    ∀ r, splitRecipients py emailSplitTuples message smtpToList = .ok r →
      (addressKeys py (r.toList ++ r.ccList ++ r.bccList)).Nodup ∧
        (∀ k, k ∈ addressKeys py (r.toList ++ r.ccList ++ r.bccList) ↔
          k ∈ smtpToList.map py.lower) ∧
        PlacedAsNamed py emailSplitTuples message smtpToList r := by
  constructor
  · have hok : (∃ e, splitRecipients py emailSplitTuples message smtpToList = .error e) ↔
        ¬ ∃ r, splitRecipients py emailSplitTuples message smtpToList = .ok r := by
      cases splitRecipients py emailSplitTuples message smtpToList <;> simp
    simp only [hok, splitRecipients_ok_iff, exists_eq_left]
    omega
  · intro r h
    have hperm := recipientsOf_perm py emailSplitTuples message smtpToList
    rw [← (splitRecipients_ok_iff.mp h).1] at hperm
    refine ⟨hperm.nodup_iff.mpr (List.nodup_dedup _), ?_, placedAsNamed_of_ok h⟩
    intro k
    rw [hperm.mem_iff, envelopeKeys, List.mem_dedup]

/-- What `email_split_tuples` makes of a bare address, and of nothing. -/
def splitBare (text : Str) : List (Str × Str) :=
  if text = [] then [] else [([], text)]

def listMessage : Message where
  items := [("to".toList, "Team@lists.example.com".toList), ("CC".toList, "BOB@example.com".toList)]

theorem splitRecipients_envelope_cc :
    splitRecipients asciiData splitBare listMessage
          ["bob@example.com".toList, "Carol@example.com".toList, "bob@Example.com".toList] =
        .ok ⟨[⟨"Carol@example.com".toList, none⟩], [⟨"BOB@example.com".toList, none⟩], []⟩ ∧
      PlacedAsNamed asciiData splitBare listMessage
        ["bob@example.com".toList, "Carol@example.com".toList, "bob@Example.com".toList]
        ⟨[⟨"Carol@example.com".toList, none⟩], [⟨"BOB@example.com".toList, none⟩], []⟩ := by
  have hok : splitRecipients asciiData splitBare listMessage
      ["bob@example.com".toList, "Carol@example.com".toList, "bob@Example.com".toList] =
        .ok ⟨[⟨"Carol@example.com".toList, none⟩], [⟨"BOB@example.com".toList, none⟩], []⟩ := by
    decide +kernel
  exact ⟨hok, ((splitRecipients_envelope asciiData splitBare listMessage
    ["bob@example.com".toList, "Carol@example.com".toList, "bob@Example.com".toList]).2 _ hok).2.2⟩

/-! ### The hidden recipients -/

variable (py emailSplitTuples message smtpToList) in
/-- Nobody hidden is among the visible recipients, except alone. -/
def HiddenUndisclosed (r : Recipients) : Prop :=
  ∀ k, Hidden py emailSplitTuples message smtpToList k →
    k ∈ addressKeys py (r.toList ++ r.ccList) →
      addressKeys py (r.toList ++ r.ccList ++ r.bccList) = [k]

/--
**A hidden recipient is disclosed exactly when it is the only one, To names nobody in the
envelope and Cc does.**
-/
theorem hiddenUndisclosed_iff {r : Recipients}
    (h : splitRecipients py emailSplitTuples message smtpToList = .ok r) :
    HiddenUndisclosed py emailSplitTuples message smtpToList r ↔
      ¬ ((∀ k ∈ envelopeKeys py smtpToList,
            k ∉ namedKeys py emailSplitTuples message "To".toList) ∧
        (∃! k, Hidden py emailSplitTuples message smtpToList k) ∧
        ∃ k ∈ envelopeKeys py smtpToList,
          k ∈ namedKeys py emailSplitTuples message "Cc".toList) := by
  obtain ⟨s, hsplit, rfl⟩ := split_of_ok h
  rw [← hsplit.toList_eq_nil_iff, ← hsplit.length_bccList_eq_one_iff]
  split
  · rename_i hlone
    obtain ⟨hempty, a, hbcc⟩ := hlone.imp_right List.length_eq_one_iff.mp
    have hnone := hsplit.toList_eq_nil_iff.mp hempty
    have honly := fun k => hsplit.hidden_iff_of_singleton hbcc (k := k)
    -- What is hidden is the promoted address, and that is alone when there is no Cc.
    have hundisclosed : HiddenUndisclosed py emailSplitTuples message smtpToList
        ⟨s.bccList, s.ccList, []⟩ ↔ s.ccList = [] := by
      unfold HiddenUndisclosed
      simp only [honly, forall_eq, hbcc, addressKeys]
      simp
    rw [hundisclosed, hsplit.ccList_eq_nil_iff]
    constructor
    · rintro hcc ⟨-, -, k, hk, hnamed⟩
      exact hcc k hk (hnone k hk) hnamed
    · intro hcond k hk _ hnamed
      exact hcond ⟨hempty, hlone.2, k, hk, hnamed⟩
  · rename_i hmany
    refine iff_of_true ?_ fun hcond => hmany ⟨hcond.1, hcond.2.1⟩
    intro k hhidden hvisible
    exact absurd hvisible (hsplit.not_visible_of_hidden hhidden)

theorem hiddenUndisclosed_iff_alone :
    HiddenUndisclosed asciiData splitBare listMessage ["carol@example.com".toList]
        ⟨[⟨"carol@example.com".toList, none⟩], [], []⟩ ↔
      ¬ ((∀ k ∈ envelopeKeys asciiData ["carol@example.com".toList],
            k ∉ namedKeys asciiData splitBare listMessage "To".toList) ∧
        (∃! k, Hidden asciiData splitBare listMessage ["carol@example.com".toList] k) ∧
        ∃ k ∈ envelopeKeys asciiData ["carol@example.com".toList],
          k ∈ namedKeys asciiData splitBare listMessage "Cc".toList) :=
  hiddenUndisclosed_iff (by decide +kernel)

/-- Carol, a blind copy, is shown to Bob. -/
theorem not_hiddenUndisclosed_cc :
    splitRecipients asciiData splitBare listMessage
          ["bob@example.com".toList, "carol@example.com".toList] =
        .ok ⟨[⟨"carol@example.com".toList, none⟩], [⟨"BOB@example.com".toList, none⟩], []⟩ ∧
      ¬ HiddenUndisclosed asciiData splitBare listMessage
        ["bob@example.com".toList, "carol@example.com".toList]
        ⟨[⟨"carol@example.com".toList, none⟩], [⟨"BOB@example.com".toList, none⟩], []⟩ := by
  refine ⟨by decide +kernel, fun h => ?_⟩
  have halone := h "carol@example.com".toList (by unfold Hidden; decide +kernel) (by decide +kernel)
  revert halone
  decide +kernel

end MailCloudflare

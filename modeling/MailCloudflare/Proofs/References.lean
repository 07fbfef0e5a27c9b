/-
What is left of References.

The loop that trims the chain is an instance of `Trim.trimFront`: what fits goes on fitting
when the oldest ids are dropped, since the joined text only gets shorter.  So what is sent
is the longest end of the chain that fits, and there is an error exactly when the last id
alone is too much.

The message's own id is at the end of the chain when it was not in the References before.
When it was, it stays where it was, and whether it is dropped is decided by what comes
behind it like for any other id.
-/
import MailCloudflare.Proofs.Headers

namespace MailCloudflare

open Unicode Python Keyed

variable {py : UnicodeData} {message : Message}

/-! ### Joining ids -/

theorem joinReferences_append (older : List Str) {ids : List Str} (h : ids ≠ []) :
    joinReferences ids <:+ joinReferences (older ++ ids) := by
  induction older with
  | nil => exact List.suffix_refl _
  | cons id older ih =>
      have hne : older ++ ids ≠ [] := by simp [h]
      unfold joinReferences at ih ⊢
      rw [List.cons_append, List.intercalate_cons_of_ne_nil hne]
      exact ih.trans (List.suffix_append _ _)

theorem length_utf8_le_of_suffix {s t : Str} (h : s <:+ t) : (utf8 s).length ≤ (utf8 t).length := by
  obtain ⟨front, rfl⟩ := h
  rw [utf8_append, List.length_append]
  omega

/-- Dropping the oldest ids makes References shorter and the object smaller. -/
theorem fits_suffixClosed (others : List (Str × Str)) :
    Trim.SuffixClosed fun ids => decide (Fits others ids) := by
  intro s t hs hsuffix hfits
  obtain ⟨older, rfl⟩ := hsuffix
  have hle := length_utf8_le_of_suffix (joinReferences_append older hs)
  rw [decide_eq_true_eq, Fits, headerSize_append] at hfits ⊢
  simp only [headerSize, List.map_singleton, List.sum_singleton] at hfits ⊢
  exact ⟨by omega, by omega⟩

/-! ### Trimming is optimal -/

/-- What References and the other headers have to meet is met by each on its own. -/
theorem withinLimits_append_iff {others : List (Str × Str)} {ids : List Str} :
    WithinLimits (others ++ [(REFERENCES, joinReferences ids)]) ↔
      ((∀ row ∈ others, (utf8 row.2).length ≤ MAX_HEADER_VALUE_BYTES) ∧
        others.length + 1 ≤ MAX_HEADER_COUNT) ∧ Fits others ids := by
  constructor
  · intro h
    refine ⟨⟨fun row hrow => h.values row (List.mem_append_left _ hrow), by simpa using h.count⟩,
      h.values _ (List.mem_append_right _ (List.mem_singleton_self _)), h.size⟩
  · rintro ⟨⟨hvalues, hcount⟩, hvalue, hsize⟩
    refine ⟨?_, hsize, by simpa using hcount⟩
    intro row hrow
    rcases List.mem_append.mp hrow with hin | hin
    · exact hvalues row hin
    · rw [List.mem_singleton.mp hin]
      exact hvalue

theorem WithinLimits.perm {rows rows' : List (Str × Str)} (h : rows.Perm rows') :
    WithinLimits rows ↔ WithinLimits rows' := by
  have himp : ∀ {rows rows' : List (Str × Str)}, rows.Perm rows' → WithinLimits rows →
      WithinLimits rows' := fun hperm hrows =>
    ⟨fun row hrow => hrows.values row (hperm.mem_iff.mpr hrow), headerSize_perm hperm ▸ hrows.size,
      hperm.length_eq ▸ hrows.count⟩
  exact ⟨himp h, himp h.symm⟩

/-- The end of the chain that is sent. -/
def kept (py : UnicodeData) (message : Message) : List Str :=
  Trim.trimFront (fun ids => Fits (otherHeaders py message) ids) (chain py message)

theorem sentHeaders_of_chain (h : chain py message ≠ []) :
    sentHeaders py message =
      (collectHeaders py message.items).set REFERENCES (joinReferences (kept py message)) :=
  if_neg h

/-- What is sent is the other headers and the end of the chain. -/
theorem rows_sentHeaders (h : chain py message ≠ []) :
    (sentHeaders py message).rows.Perm
      (otherHeaders py message ++ [(REFERENCES, joinReferences (kept py message))]) := by
  rw [sentHeaders_of_chain h, ← without_collectHeaders]
  exact Dict.perm_rows_set _ _ _

/-- The longest end of the chain that fits. -/
structure IsLongestFit (others : List (Str × Str)) (ids best : List Str) : Prop where
  ne_nil : best ≠ []
  suffix : best <:+ ids
  fits : Fits others best
  longest : ∀ {s : List Str}, s ≠ [] → s <:+ ids → Fits others s → s.length ≤ best.length

/--
**Trimming is optimal, and an error is raised only when it cannot help**: exactly when the
last id alone is too much beside the other headers.
-/
theorem passthroughHeaders_references (hids : chain py message ≠ []) :
    ((∃ e, passthroughHeaders py message = .error e) ↔
      ¬ WithinLimits (otherHeaders py message ++
        [(REFERENCES, (chain py message).getLast hids)])) ∧
    ∀ headers, passthroughHeaders py message = .ok headers →
      ∃ best, IsLongestFit (otherHeaders py message) (chain py message) best ∧
        headers.lookup REFERENCES = some (joinReferences best) ∧
        headers.without REFERENCES = otherHeaders py message := by
  have hclosed := fits_suffixClosed (otherHeaders py message)
  have hlimits : WithinLimits (sentHeaders py message).rows ↔
      WithinLimits (otherHeaders py message ++ [(REFERENCES, (chain py message).getLast hids)]) := by
    have hlast : (chain py message).getLast hids =
        joinReferences [(chain py message).getLast hids] := List.intercalate_singleton.symm
    have hfits := Trim.fits_trimFront_iff hclosed hids
    rw [decide_eq_true_eq, decide_eq_true_eq] at hfits
    rw [WithinLimits.perm (rows_sentHeaders hids), hlast, withinLimits_append_iff,
      withinLimits_append_iff]
    exact and_congr_right fun _ => hfits
  constructor
  · rw [← hlimits]
    cases hresult : passthroughHeaders py message with
    | error e =>
        refine iff_of_true ⟨e, rfl⟩ ?_
        intro hwithin
        rw [passthroughHeaders_ok_iff.mpr ⟨rfl, hwithin⟩] at hresult
        cases hresult
    | ok headers =>
        exact iff_of_false (by simp) (not_not.mpr (passthroughHeaders_ok_iff.mp hresult).2)
  · intro headers hresult
    obtain ⟨rfl, hwithin⟩ := passthroughHeaders_ok_iff.mp hresult
    rw [WithinLimits.perm (rows_sentHeaders hids), withinLimits_append_iff] at hwithin
    refine ⟨kept py message, ⟨Trim.trimFront_ne_nil hids, Trim.trimFront_suffix _ _, hwithin.2,
      fun hs hsuffix hfits => Trim.length_le_trimFront hs hsuffix (decide_eq_true hfits)⟩, ?_, ?_⟩
    · rw [sentHeaders_of_chain hids, Dict.lookup_set, if_pos rfl]
    · rw [sentHeaders_of_chain hids, Dict.without_set, without_collectHeaders]

theorem passthroughHeaders_references_tagged :
    ∃ hids : chain asciiData taggedMessage ≠ [],
      ((∃ e, passthroughHeaders asciiData taggedMessage = .error e) ↔
        ¬ WithinLimits (otherHeaders asciiData taggedMessage ++
          [(REFERENCES, (chain asciiData taggedMessage).getLast hids)])) ∧
      ∀ headers, passthroughHeaders asciiData taggedMessage = .ok headers →
        ∃ best, IsLongestFit (otherHeaders asciiData taggedMessage) (chain asciiData taggedMessage)
            best ∧
          headers.lookup REFERENCES = some (joinReferences best) ∧
          headers.without REFERENCES = otherHeaders asciiData taggedMessage := by
  have hids : chain asciiData taggedMessage ≠ [] := by decide +kernel
  exact ⟨hids, passthroughHeaders_references hids⟩

/-! ### Reading ids -/

/-- `<...>`, with something inside and no other bracket. -/
def IsMsgId (id : Str) : Prop :=
  ∃ body : Str, body ≠ [] ∧ '<' ∉ body ∧ '>' ∉ body ∧ id = '<' :: body ++ ['>']

theorem IsMsgId.ne_nil {id : Str} (h : IsMsgId id) : id ≠ [] := by
  obtain ⟨body, -, -, -, rfl⟩ := h
  simp

theorem msgIdsFrom_open (inside : Option Str) (rest : Str) :
    msgIdsFrom inside ('<' :: rest) = msgIdsFrom (some []) rest := by
  cases inside <;> rfl

theorem msgIdsFrom_outside {c : Char} (h : c ≠ '<') (rest : Str) :
    msgIdsFrom none (c :: rest) = msgIdsFrom none rest :=
  if_neg h

theorem msgIdsFrom_body {c : Char} (hopen : c ≠ '<') (hclose : c ≠ '>') (body rest : Str) :
    msgIdsFrom (some body) (c :: rest) = msgIdsFrom (some (body ++ [c])) rest := by
  rw [msgIdsFrom, if_neg hopen, if_neg hclose]

theorem msgIdsFrom_close (body rest : Str) :
    msgIdsFrom (some body) ('>' :: rest) =
      if body = [] then msgIdsFrom none rest
      else ('<' :: body ++ ['>']) :: msgIdsFrom none rest := by
  rw [msgIdsFrom, if_neg (by decide), if_pos rfl]

/-- A `<` begins anew, whatever has been read. -/
theorem msgIdsFrom_append (inside : Option Str) (before rest : Str) :
    msgIdsFrom inside (before ++ '<' :: rest) =
      msgIdsFrom inside before ++ msgIdsFrom (some []) rest := by
  induction before generalizing inside with
  | nil => cases inside <;> rfl
  | cons c before ih =>
      rw [List.cons_append]
      by_cases hopen : c = '<'
      · rw [hopen, msgIdsFrom_open, msgIdsFrom_open, ih]
      · cases inside with
        | none => rw [msgIdsFrom_outside hopen, msgIdsFrom_outside hopen, ih]
        | some body =>
            by_cases hclose : c = '>'
            · rw [hclose, msgIdsFrom_close, msgIdsFrom_close, ih]
              split <;> rfl
            · rw [msgIdsFrom_body hopen hclose, msgIdsFrom_body hopen hclose, ih]

theorem msgIdsFrom_inside (acc : Str) {body : Str} (hopen : '<' ∉ body) (hclose : '>' ∉ body)
    (rest : Str) :
    msgIdsFrom (some acc) (body ++ rest) = msgIdsFrom (some (acc ++ body)) rest := by
  induction body generalizing acc with
  | nil => simp
  | cons c body ih =>
      rw [List.mem_cons, not_or] at hopen hclose
      rw [List.cons_append, msgIdsFrom_body (Ne.symm hopen.1) (Ne.symm hclose.1),
        ih _ hopen.2 hclose.2, List.append_assoc]
      rfl

/-- An id is read, wherever it stands. -/
theorem msgIds_append {id : Str} (h : IsMsgId id) (before rest : Str) :
    msgIds (before ++ (id ++ rest)) = msgIds before ++ id :: msgIds rest := by
  obtain ⟨body, hne, hopen, hclose, rfl⟩ := h
  have htext : '<' :: body ++ ['>'] ++ rest = '<' :: (body ++ '>' :: rest) := by simp
  unfold msgIds
  rw [htext, msgIdsFrom_append, msgIdsFrom_inside [] hopen hclose, List.nil_append,
    msgIdsFrom_close, if_neg hne]

theorem isMsgId_of_mem {text id : Str} (h : id ∈ msgIds text) : IsMsgId id := by
  have hfrom : ∀ (text : Str) (inside : Option Str),
      (∀ body ∈ inside, '<' ∉ body ∧ '>' ∉ body) → ∀ id ∈ msgIdsFrom inside text, IsMsgId id := by
    intro text
    induction text with
    | nil => exact fun _ _ id hid => absurd hid (by simp [msgIdsFrom])
    | cons c rest ih =>
        intro inside hinside id hid
        by_cases hopen : c = '<'
        · rw [hopen, msgIdsFrom_open] at hid
          exact ih (some []) (by simp) id hid
        · cases inside with
          | none =>
              rw [msgIdsFrom_outside hopen] at hid
              exact ih none (by simp) id hid
          | some body =>
              obtain ⟨hbodyOpen, hbodyClose⟩ := hinside body rfl
              by_cases hclose : c = '>'
              · rw [hclose, msgIdsFrom_close] at hid
                split at hid
                · exact ih none (by simp) id hid
                · rename_i hne
                  rcases List.mem_cons.mp hid with rfl | hin
                  · exact ⟨body, hne, hbodyOpen, hbodyClose, rfl⟩
                  · exact ih none (by simp) id hin
              · rw [msgIdsFrom_body hopen hclose] at hid
                refine ih (some (body ++ [c])) ?_ id hid
                intro next hnext
                rw [← Option.some.inj hnext]
                simp [hbodyOpen, hbodyClose, Ne.symm hopen, Ne.symm hclose]
  exact hfrom text none (by simp) id h

/-- **What is joined is read back.** -/
theorem msgIds_joinReferences {ids : List Str} (h : ∀ id ∈ ids, IsMsgId id) :
    msgIds (joinReferences ids) = ids := by
  induction ids with
  | nil => rfl
  | cons id ids ih =>
      have hread : ∀ rest, msgIds (id ++ rest) = id :: msgIds rest :=
        fun rest => msgIds_append (h id List.mem_cons_self) [] rest
      have hrest := ih fun id hid => h id (List.mem_cons_of_mem _ hid)
      cases ids with
      | nil =>
          have hone := hread []
          rw [List.append_nil] at hone
          rw [joinReferences, List.intercalate_singleton, hone]
          rfl
      | cons next rest =>
          unfold joinReferences at hrest ⊢
          rw [List.intercalate_cons_cons]
          have hspace : msgIds (' ' :: [' '].intercalate (next :: rest)) =
              msgIds ([' '].intercalate (next :: rest)) := msgIdsFrom_outside (by decide) _
          rw [List.append_assoc, hread, List.singleton_append, hspace, hrest]

/-! ### The message's own id -/

/-- References has the message's own id as one of its entries. -/
def OwnIdSurvives (py : UnicodeData) (message : Message) (headers : Headers) : Prop :=
  ∃ entries, headers.lookup REFERENCES = some (joinReferences entries) ∧
    ownId py message ∈ entries

theorem isMsgId_of_mem_chain (hown : IsMsgId (ownId py message)) :
    ∀ id ∈ chain py message, IsMsgId id := by
  intro id hid
  unfold chain at hid
  dsimp only at hid
  split at hid
  · rcases List.mem_append.mp hid with hin | hin
    · exact isMsgId_of_mem hin
    · rwa [List.mem_singleton.mp hin]
  · exact isMsgId_of_mem hid

theorem ownId_mem_chain (hown : IsMsgId (ownId py message)) :
    ownId py message ∈ chain py message := by
  unfold chain
  dsimp only
  split
  · simp
  · rename_i h
    rw [not_and, not_not] at h
    exact h hown.ne_nil

theorem infix_joinReferences {id : Str} {ids : List Str} (h : id ∈ ids) :
    id <:+: joinReferences ids := by
  obtain ⟨before, after, rfl⟩ := List.append_of_mem h
  have hprefix : id <+: joinReferences (id :: after) := by
    cases after with
    | nil =>
        rw [joinReferences, List.intercalate_singleton]
    | cons next rest =>
        rw [joinReferences, List.intercalate_cons_cons, List.append_assoc]
        exact List.prefix_append _ _
  exact hprefix.isInfix.trans (joinReferences_append before (List.cons_ne_nil id after)).isInfix

/-- Nothing but the ids that were joined can be told from the text. -/
theorem mem_of_joinReferences_eq {ids entries : List Str} {id : Str}
    (hids : ∀ id ∈ ids, IsMsgId id) (hid : IsMsgId id)
    (h : joinReferences entries = joinReferences ids) (hmem : id ∈ entries) : id ∈ ids := by
  obtain ⟨before, after, htext⟩ := infix_joinReferences hmem
  rw [h, List.append_assoc] at htext
  rw [← msgIds_joinReferences hids, ← htext, msgIds_append hid]
  simp

/-- The own id survives when it is in the end of the chain that is sent. -/
theorem ownIdSurvives_sentHeaders (hown : IsMsgId (ownId py message)) :
    OwnIdSurvives py message (sentHeaders py message) ↔ ownId py message ∈ kept py message := by
  have hlookup : (sentHeaders py message).lookup REFERENCES =
      some (joinReferences (kept py message)) := by
    rw [sentHeaders_of_chain (List.ne_nil_of_mem (ownId_mem_chain hown)), Dict.lookup_set, if_pos rfl]
  unfold OwnIdSurvives
  rw [hlookup]
  constructor
  · rintro ⟨entries, htext, hmem⟩
    refine mem_of_joinReferences_eq ?_ hown (Option.some.inj htext).symm hmem
    intro id hid
    exact isMsgId_of_mem_chain hown id ((Trim.trimFront_suffix _ _).subset hid)
  · exact fun hmem => ⟨_, rfl, hmem⟩

/-- An own id that is new to the References survives. -/
theorem ownIdSurvives_of_new {headers : Headers} (hown : IsMsgId (ownId py message))
    (hnew : ownId py message ∉
      msgIds (joinValues (headerValues py message.items "references".toList)))
    (h : passthroughHeaders py message = .ok headers) : OwnIdSurvives py message headers := by
  have hids : chain py message ≠ [] := List.ne_nil_of_mem (ownId_mem_chain hown)
  have hchain : chain py message = msgIds (joinValues (headerValues py message.items
      "references".toList)) ++ [ownId py message] := if_pos ⟨hown.ne_nil, hnew⟩
  have hlast : (chain py message).getLast hids = ownId py message :=
    (List.getLast_congr hids (by simp) hchain).trans (List.getLast_concat ..)
  rw [(passthroughHeaders_ok_iff.mp h).1, ownIdSurvives_sentHeaders hown, ← hlast]
  exact (Trim.getLast_suffix_trimFront hids).subset (List.mem_singleton_self _)

/--
**Odoo's own id survives exactly when what stands from its last occurrence in the chain on
fits.**
-/
theorem ownIdSurvives_iff {headers : Headers} (hown : IsMsgId (ownId py message))
    (h : passthroughHeaders py message = .ok headers) :
    OwnIdSurvives py message headers ↔
      Fits (otherHeaders py message) (Trim.fromLast (ownId py message) (chain py message)) := by
  obtain ⟨rfl, hwithin⟩ := passthroughHeaders_ok_iff.mp h
  rw [WithinLimits.perm (rows_sentHeaders (List.ne_nil_of_mem (ownId_mem_chain hown))),
    withinLimits_append_iff] at hwithin
  have hkept := Trim.mem_trimFront_iff (fits_suffixClosed (otherHeaders py message))
    (decide_eq_true hwithin.2) (ownId_mem_chain hown)
  rw [decide_eq_true_eq] at hkept
  exact (ownIdSurvives_sentHeaders hown).trans hkept

/-- A message whose id begins a chain that is too long by itself. -/
def longMessage : Message where
  items := [("Message-Id".toList, "<own@x>".toList),
    ("References".toList, "<own@x> <".toList ++ List.replicate 682 '日' ++ ">".toList)]

theorem ownIdSurvives_iff_tagged :
    ∃ headers, passthroughHeaders asciiData taggedMessage = .ok headers ∧
      (OwnIdSurvives asciiData taggedMessage headers ↔
        Fits (otherHeaders asciiData taggedMessage)
          (Trim.fromLast (ownId asciiData taggedMessage) (chain asciiData taggedMessage))) := by
  have hown : IsMsgId (ownId asciiData taggedMessage) :=
    ⟨"own@x".toList, by decide, by decide, by decide, by decide +kernel⟩
  obtain ⟨headers, hok⟩ : ∃ headers, passthroughHeaders asciiData taggedMessage = .ok headers :=
    exists_headers_of_isOk (by decide +kernel)
  exact ⟨headers, hok, ownIdSurvives_iff hown hok⟩

theorem not_ownIdSurvives_long :
    ∃ headers, passthroughHeaders asciiData longMessage = .ok headers ∧
      IsMsgId (ownId asciiData longMessage) ∧ ¬ OwnIdSurvives asciiData longMessage headers := by
  have hown : IsMsgId (ownId asciiData longMessage) :=
    ⟨"own@x".toList, by decide, by decide, by decide, by decide +kernel⟩
  have hkept : ownId asciiData longMessage ∉ kept asciiData longMessage := by decide +kernel
  obtain ⟨headers, hok⟩ : ∃ headers, passthroughHeaders asciiData longMessage = .ok headers :=
    exists_headers_of_isOk (by decide +kernel)
  refine ⟨headers, hok, hown, ?_⟩
  rwa [(passthroughHeaders_ok_iff.mp hok).1, ownIdSurvives_sentHeaders hown]

end MailCloudflare

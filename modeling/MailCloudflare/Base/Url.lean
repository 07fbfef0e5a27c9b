/-
The parts of a URL, as `urllib.parse.urlsplit` finds them.

White space and control characters before a URL, and tabs and line breaks anywhere in it,
are dropped; then the scheme ends at the first colon and the network location at the next
slash, question mark or number sign.  So a path that is put behind a URL, after the slashes
the URL ends with, leaves both of them as they were.
-/
import MailCloudflare.Base.Python
import Mathlib.Data.List.DropRight

namespace Python

open Unicode

/-- C0 controls and the space. -/
def isControlOrSpace (c : Char) : Bool := c.toNat ≤ 0x20

/-- A character that is dropped wherever it stands. -/
def isUnsafe (c : Char) : Bool := c = '\t' || c = '\r' || c = '\n'

def isSchemeChar (c : Char) : Bool := c.isAlphanum || c = '+' || c = '-' || c = '.'

def endsNetloc (c : Char) : Bool := c = '/' || c = '?' || c = '#'

structure SplitResult where
  scheme : Str
  netloc : Str
  path : Str
  query : Str
  fragment : Str
  deriving DecidableEq

/-- What is left of a URL before it is split. -/
def cleanUrl (url : Str) : Str := (url.dropWhile isControlOrSpace).filter fun c => !isUnsafe c

def splitScheme (url : Str) : Str × Str :=
  let (scheme, rest) := partition ':' url
  if ':' ∈ url ∧ scheme.head?.any Char.isAlpha ∧ scheme.all isSchemeChar then
    (scheme.map Char.toLower, rest)
  else ([], url)

def splitNetloc : Str → Str × Str
  | '/' :: '/' :: rest => (rest.takeWhile (!endsNetloc ·), rest.dropWhile (!endsNetloc ·))
  | url => ([], url)

/--
`urlsplit(url)`; `none` is a ValueError.  What it asks of a network location, which is that
its brackets hold an address and that no character in it turns into a separator when it is
normalized, is a parameter.
-/
def urlsplit (valid : Str → Bool) (url : Str) : Option SplitResult :=
  let (scheme, url) := splitScheme (cleanUrl url)
  let (netloc, url) := splitNetloc url
  if valid netloc then
    let (url, fragment) := partition '#' url
    let (path, query) := partition '?' url
    some { scheme, netloc, path, query, fragment }
  else none

/-- `SplitResult.hostname` of a network location. -/
def hostname (py : UnicodeData) (netloc : Str) : Option Str :=
  let hostinfo := (netloc.reverse.takeWhile (· ≠ '@')).reverse
  let host :=
    if '[' ∈ hostinfo then (partition ']' (partition '[' hostinfo).2).1
    else (partition ':' hostinfo).1
  if host = [] then none
  else some (py.lower (host.takeWhile (· ≠ '%')) ++ host.dropWhile (· ≠ '%'))

/-- `url.rstrip("/")`. -/
def rstripSlash (url : Str) : Str := url.rdropWhile (· = '/')

/-! ### A path behind a URL -/

/-- A path in plain characters. -/
structure IsPlainPath (path : Str) : Prop where
  slash : path.head? = some '/'
  plain : ∀ c ∈ path, 0x20 < c.toNat ∧ c ≠ ':' ∧ c ≠ '?' ∧ c ≠ '#'

theorem dropWhile_append_head {p : Char → Bool} {s t : Str} (h : ∀ c ∈ t.head?, p c = false) :
    (s ++ t).dropWhile p = s.dropWhile p ++ t := by
  have hstays : t.dropWhile p = t := by
    cases t with
    | nil => rfl
    | cons c t => exact List.dropWhile_cons_of_neg (by simp [h c rfl])
  rw [List.dropWhile_append, hstays]
  split
  · rename_i hnil
    rw [List.isEmpty_iff.mp hnil, List.nil_append]
  · rfl

theorem takeWhile_append_head {p : Char → Bool} {s t : Str} (h : ∀ c ∈ t.head?, p c = false) :
    (s ++ t).takeWhile p = s.takeWhile p := by
  have hnone : t.takeWhile p = [] := by
    cases t with
    | nil => rfl
    | cons c t => exact List.takeWhile_cons_of_neg (by simp [h c rfl])
  rw [List.takeWhile_append, hnone, List.append_nil]
  split
  · rename_i hall
    exact ((List.takeWhile_prefix p).eq_of_length hall).symm
  · rfl

theorem partition_of_notMem {sep : Char} {s : Str} (h : sep ∉ s) : partition sep s = (s, []) := by
  have hall : ∀ c ∈ s, decide (c ≠ sep) = true := by
    intro c hc
    exact decide_eq_true fun heq => h (heq ▸ hc)
  rw [partition, List.takeWhile_eq_self_iff.mpr hall, List.dropWhile_eq_nil_iff.mpr hall]
  rfl

theorem partition_append_of_mem {sep : Char} {s : Str} (h : sep ∈ s) (t : Str) :
    partition sep (s ++ t) = ((partition sep s).1, (partition sep s).2 ++ t) := by
  obtain ⟨front, rest, rfl, hfront⟩ := List.eq_append_cons_of_mem h
  rw [partition_append hfront, List.append_assoc, List.cons_append, partition_append hfront]

/-- Plain characters behind a URL are kept. -/
theorem cleanUrl_append (s : Str) {t : Str} (h : ∀ c ∈ t, 0x20 < c.toNat) :
    cleanUrl (s ++ t) = cleanUrl s ++ t := by
  have hhead : ∀ c ∈ t.head?, isControlOrSpace c = false := by
    intro c hc
    have := h c (List.mem_of_head? hc)
    simp [isControlOrSpace, this]
  have hkeep : ∀ c ∈ t, (!isUnsafe c) = true := by
    intro c hc
    have hlarge := h c hc
    have hne : ∀ d : Char, d.toNat ≤ 0x20 → c ≠ d := by
      rintro d hd rfl
      omega
    simp [isUnsafe, hne '\t' (by decide), hne '\r' (by decide), hne '\n' (by decide)]
  rw [cleanUrl, dropWhile_append_head hhead, List.filter_append, List.filter_eq_self.mpr hkeep]
  rfl

theorem splitScheme_append (s : Str) {t : Str} (h : ':' ∉ t) :
    splitScheme (s ++ t) = ((splitScheme s).1, (splitScheme s).2 ++ t) := by
  by_cases hcolon : ':' ∈ s
  · simp only [splitScheme, partition_append_of_mem hcolon, List.mem_append, hcolon, true_or,
      true_and]
    split <;> rfl
  · simp [splitScheme, hcolon, h]

theorem splitNetloc_append {s t : Str} (hs : 2 ≤ s.length) (h : ∀ c ∈ t.head?, endsNetloc c = true) :
    splitNetloc (s ++ t) = ((splitNetloc s).1, (splitNetloc s).2 ++ t) := by
  have hhead : ∀ c ∈ t.head?, (!endsNetloc c) = false := fun c hc => by rw [h c hc]; rfl
  obtain ⟨a, b, s, rfl⟩ : ∃ a b rest, s = a :: b :: rest := by
    match s, hs with
    | a :: b :: rest, _ => exact ⟨a, b, rest, rfl⟩
  by_cases hslashes : a = '/' ∧ b = '/'
  · obtain ⟨rfl, rfl⟩ := hslashes
    show ((s ++ t).takeWhile _, (s ++ t).dropWhile _) = (s.takeWhile _, s.dropWhile _ ++ t)
    rw [takeWhile_append_head hhead, dropWhile_append_head hhead]
  · have hplain : ∀ rest, splitNetloc (a :: b :: rest) = ([], a :: b :: rest) := by
      intro rest
      unfold splitNetloc
      split
      · rename_i heq
        cases heq
        exact absurd ⟨rfl, rfl⟩ hslashes
      · rfl
    rw [List.cons_append, List.cons_append, hplain, hplain]
    rfl

/-- Slashes alone name no network location. -/
theorem two_le_length_of_splitNetloc {s t : Str} (ht : ∀ c ∈ t, c = '/')
    (h : (splitNetloc (s ++ t)).1 ≠ []) : 2 ≤ s.length := by
  by_contra hshort
  refine h ?_
  unfold splitNetloc
  split
  · rename_i rest heq
    have hrest : rest = t.drop (2 - s.length) := by
      have hdrop := congrArg (List.drop 2) heq
      rw [List.drop_append, List.drop_of_length_le (by omega)] at hdrop
      exact hdrop.symm
    cases hrest' : rest with
    | nil => rfl
    | cons c rest =>
        have hc : c = '/' := ht c (List.mem_of_mem_drop (by rw [← hrest, hrest']; simp))
        rw [hc]
        rfl
  · rfl

/-! ### Where a URL leads -/

/-- The scheme and the network location of a URL. -/
def location (url : Str) : Str × Str :=
  let (scheme, rest) := splitScheme (cleanUrl url)
  (scheme, (splitNetloc rest).1)

theorem location_of_urlsplit {valid : Str → Bool} {url : Str} {parts : SplitResult}
    (h : urlsplit valid url = some parts) : (parts.scheme, parts.netloc) = location url := by
  unfold urlsplit at h
  dsimp only at h
  split at h
  · cases h
    rfl
  · cases h

/--
A path in the place of the slashes at the end of a URL: the scheme stays, and so does the
network location if there is one.
-/
theorem location_append_path (base : Str) {path : Str} (h : IsPlainPath path) :
    (location (rstripSlash base ++ path)).1 = (location base).1 ∧
      ((location base).2 ≠ [] → (location (rstripSlash base ++ path)).2 = (location base).2) := by
  have hslashes : ∀ c ∈ base.rtakeWhile (· = '/'), c = '/' := by
    intro c hc
    simpa using List.mem_rtakeWhile_imp hc
  have hbase : location base = location (rstripSlash base ++ base.rtakeWhile (· = '/')) :=
    congrArg location List.rdropWhile_append_rtakeWhile.symm
  have hclean := cleanUrl_append (rstripSlash base) fun c hc => (h.plain c hc).1
  have hclean' := cleanUrl_append (rstripSlash base) (t := base.rtakeWhile (· = '/')) fun c hc => by
    rw [hslashes c hc]
    decide
  have hsplit := splitScheme_append (cleanUrl (rstripSlash base)) (t := path) fun hc =>
    (h.plain _ hc).2.1 rfl
  have hsplit' := splitScheme_append (cleanUrl (rstripSlash base))
    (t := base.rtakeWhile (· = '/')) fun hc => absurd (hslashes _ hc) (by decide)
  rw [hbase]
  simp only [location, hclean, hclean', hsplit, hsplit', true_and]
  intro hnetloc
  have hlong := two_le_length_of_splitNetloc hslashes hnetloc
  rw [splitNetloc_append hlong, splitNetloc_append hlong]
  · intro c hc
    rw [hslashes c (List.mem_of_head? hc)]
    rfl
  · intro c hc
    rw [h.slash] at hc
    cases hc
    rfl

/-! ### An origin -/

/-- A scheme and a network location. -/
structure Origin where
  scheme : Str
  netloc : Str
  scheme_alpha : scheme.head?.any Char.isAlpha = true
  scheme_char : scheme.all isSchemeChar = true
  netloc_ne : netloc ≠ []
  netloc_char : ∀ c ∈ netloc, 0x20 < c.toNat ∧ endsNetloc c = false

/-- The URL of an origin, without a path. -/
def Origin.text (origin : Origin) : Str := origin.scheme ++ ':' :: '/' :: '/' :: origin.netloc

theorem Origin.colon_notMem (origin : Origin) : ':' ∉ origin.scheme := by
  intro hmem
  have hcolon := List.all_eq_true.mp origin.scheme_char _ hmem
  exact absurd hcolon (by decide)

theorem Origin.plain (origin : Origin) : ∀ c ∈ origin.text, 0x20 < c.toNat := by
  have hscheme : ∀ c, isSchemeChar c = true → 0x20 < c.toNat := by
    intro c hc
    by_contra hsmall
    have hall : ∀ n : Fin 0x21, isSchemeChar (Char.ofNat n) = false := by decide
    have hnot := hall ⟨c.toNat, by omega⟩
    rw [Char.ofNat_toNat, hc] at hnot
    cases hnot
  intro c hc
  rcases List.mem_append.mp hc with hc | hc
  · exact hscheme c (List.all_eq_true.mp origin.scheme_char c hc)
  · simp only [List.mem_cons] at hc
    rcases hc with rfl | rfl | rfl | hc
    · decide
    · decide
    · decide
    · exact (origin.netloc_char c hc).1

/-- The slashes behind an origin are dropped, and nothing else. -/
theorem rstripSlash_origin (origin : Origin) (k : Nat) :
    rstripSlash (origin.text ++ List.replicate k '/') = origin.text := by
  have hlast : ∀ hne : origin.text ≠ [], ¬ decide (origin.text.getLast hne = '/') = true := by
    intro hne hslash
    have hmem : origin.text.getLast hne ∈ origin.netloc := by
      have heq : origin.text.getLast hne = origin.netloc.getLast origin.netloc_ne := by
        simp [Origin.text, List.getLast_cons, origin.netloc_ne]
      rw [heq]
      exact List.getLast_mem _
    have hends := (origin.netloc_char _ hmem).2
    rw [of_decide_eq_true hslash] at hends
    exact absurd hends (by decide)
  induction k with
  | zero =>
      rw [List.replicate_zero, List.append_nil]
      exact List.rdropWhile_eq_self_iff.mpr hlast
  | succ k ih =>
      rw [List.replicate_succ', ← List.append_assoc, rstripSlash,
        List.rdropWhile_concat_pos _ _ _ (by simp)]
      exact ih

/-- A path behind an origin is the path of the URL. -/
theorem urlsplit_origin (valid : Str → Bool) (origin : Origin) {path : Str} (h : IsPlainPath path) :
    urlsplit valid (origin.text ++ path) =
      if valid origin.netloc then
        some ⟨origin.scheme.map Char.toLower, origin.netloc, path, [], []⟩
      else none := by
  have hclean : cleanUrl (origin.text ++ path) = origin.text ++ path := by
    have hplain : ∀ c ∈ origin.text ++ path, 0x20 < c.toNat := by
      intro c hc
      rcases List.mem_append.mp hc with hc | hc
      · exact origin.plain c hc
      · exact (h.plain c hc).1
    exact cleanUrl_append [] hplain
  have hscheme : splitScheme (origin.text ++ path) =
      (origin.scheme.map Char.toLower, '/' :: '/' :: (origin.netloc ++ path)) := by
    have htext : origin.text ++ path =
        origin.scheme ++ ':' :: '/' :: '/' :: (origin.netloc ++ path) := by
      simp [Origin.text]
    rw [htext, splitScheme, partition_append origin.colon_notMem]
    dsimp only
    rw [if_pos ⟨by simp, origin.scheme_alpha, origin.scheme_char⟩]
  have hends : ∀ c ∈ path.head?, (!endsNetloc c) = false := by
    intro c hc
    rw [h.slash] at hc
    cases hc
    rfl
  have hinside : ∀ c ∈ origin.netloc, (!endsNetloc c) = true := by
    intro c hc
    rw [(origin.netloc_char c hc).2]
    rfl
  have hnetloc : splitNetloc ('/' :: '/' :: (origin.netloc ++ path)) = (origin.netloc, path) := by
    show ((origin.netloc ++ path).takeWhile _, (origin.netloc ++ path).dropWhile _) = _
    rw [takeWhile_append_head hends, dropWhile_append_head hends,
      List.takeWhile_eq_self_iff.mpr hinside, List.dropWhile_eq_nil_iff.mpr hinside,
      List.nil_append]
  have hfragment := @partition_of_notMem '#' path fun hc => (h.plain _ hc).2.2.2 rfl
  have hquery := @partition_of_notMem '?' path fun hc => (h.plain _ hc).2.2.1 rfl
  unfold urlsplit
  rw [hclean, hscheme]
  dsimp only
  rw [hnetloc]
  dsimp only
  rw [hfragment]
  dsimp only
  rw [hquery]

end Python

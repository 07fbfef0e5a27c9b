/-
Ids are numerals.

An id is the 26 digits of one number, in base 32: the timestamp's ten and behind them the
sixteen the random bytes are repacked into.  That its text sorts as the timestamp does, that
it can be read back, and that it is no other id are then facts about numerals of a fixed
width.  The work is the repacking loop: after each byte, the digits written and the bits
still in the accumulator are together the bytes read (`Packed`).
-/
import MailCloudflare.Base.Radix
import MailCloudflare.Worker.Inbox
import MailCloudflare.Worker.Ulid
import Mathlib.Data.List.Induction

namespace MailCloudflare

open Unicode Radix

/-! ### Digits and characters -/

def ulidChar (d : Fin 32) : Char := ULID_ALPHABET.toList.getD d.val '0'

/-- The text of a numeral. -/
def ulidText (ds : List (Fin 32)) : String := String.ofList (ds.map ulidChar)

/-- The digits of a text, by their place in the alphabet. -/
def ulidDigits (id : String) : List (Fin 32) :=
  id.toList.map fun c => Fin.ofNat 32 (ULID_ALPHABET.toList.idxOf c)

/-- The timestamp that is read from an id. -/
def decodeTime (id : String) : Nat := value ((ulidDigits id).take ULID_TIME_CHARS)

/-- The random bits that are read from an id, as a number. -/
def decodeRandom (id : String) : Nat := value ((ulidDigits id).drop ULID_TIME_CHARS)

/-- The bytes as a number. -/
def bytesValue (bytes : Bytes) : Nat := value (bytes.map UInt8.toFin)

theorem charAt_alphabet {n : Nat} (h : n < 32) :
    (charAt ULID_ALPHABET n).toList = [ulidChar ⟨n, h⟩] := by
  have hlength : ULID_ALPHABET.toList.length = 32 := by decide +kernel
  unfold charAt ulidChar
  rw [String.toList_ofList, List.getD_eq_getElem?_getD, List.getElem?_eq_getElem (by omega)]
  rfl

/-- The alphabet is in order. -/
theorem ulidChar_lt : ∀ d e : Fin 32, d < e → ulidChar d < ulidChar e := by decide +kernel

theorem idxOf_ulidChar : ∀ d : Fin 32, Fin.ofNat 32 (ULID_ALPHABET.toList.idxOf (ulidChar d)) = d := by
  decide +kernel

theorem isUlidChar_ulidChar : ∀ d : Fin 32, isUlidChar (ulidChar d) = true := by decide +kernel

theorem ulidDigits_ulidText (ds : List (Fin 32)) : ulidDigits (ulidText ds) = ds := by
  unfold ulidDigits ulidText
  rw [String.toList_ofList, List.map_map]
  exact (List.map_congr_left fun d _ => idxOf_ulidChar d).trans (List.map_id _)

theorem ulidText_lt {ds es : List (Fin 32)} (h : ds < es) : ulidText ds < ulidText es := by
  unfold ulidText
  rw [String.lt_iff, String.toList_ofList, String.toList_ofList]
  exact List.map_lt ulidChar_lt h

theorem ulidText_append (ds es : List (Fin 32)) :
    ulidText (ds ++ es) = ulidText ds ++ ulidText es := by
  unfold ulidText
  rw [List.map_append, String.ofList_append]

/-! ### The timestamp -/

theorem encodeTimeFrom_eq (left remaining : Nat) (ds : List (Fin 32)) :
    encodeTimeFrom left remaining (ulidText ds) = ulidText (digits 32 left remaining ++ ds) := by
  induction left generalizing remaining ds with
  | zero => rfl
  | succ left ih =>
      have hchar : charAt ULID_ALPHABET (remaining % 32) = ulidText [Fin.ofNat 32 remaining] := by
        rw [← String.toList_inj, charAt_alphabet (Nat.mod_lt _ (by decide)), ulidText,
          String.toList_ofList]
        rfl
      rw [encodeTimeFrom, hchar, ← ulidText_append, ih, digits, List.append_assoc]

theorem encodeTime_eq (ms : Nat) : encodeTime ms = ulidText (digits 32 ULID_TIME_CHARS ms) := by
  unfold encodeTime
  have h := encodeTimeFrom_eq ULID_TIME_CHARS ms []
  rwa [List.append_nil] at h

/-! ### The random bytes -/

theorem pow_thirtyTwo (count left : Nat) : 32 ^ count * 2 ^ left = 2 ^ (5 * count + left) := by
  rw [pow_add, pow_mul]
  rfl

/-- The digit that is complete once `bits` bits are below it. -/
theorem toNat_shiftRight_and (acc : UInt32) {bits : Nat} (hbits : bits < 32) :
    ((acc >>> UInt32.ofNat bits) &&& 31).toNat = acc.toNat / 2 ^ bits % 32 := by
  have hofNat : (UInt32.ofNat bits).toNat = bits := UInt32.toNat_ofNat_of_lt (Nat.lt_trans hbits (by decide))
  rw [UInt32.toNat_and, UInt32.toNat_shiftRight, hofNat, Nat.mod_eq_of_lt hbits,
    Nat.shiftRight_eq_div_pow]
  exact Nat.and_two_pow_sub_one_eq_mod _ 5

/--
The characters of the accumulator's complete digits.  Below the digits that are written are
the bits that are left.
-/
theorem emitChars_spec (acc : UInt32) (bits : Nat) (hbits : bits < 32) (ds : List (Fin 32)) :
    ∃ es : List (Fin 32), ∃ left : Nat,
      emitChars acc bits (ulidText ds) = (ulidText (ds ++ es), left) ∧ left < 5 ∧
        bits = 5 * es.length + left ∧
        value es * 2 ^ left + acc.toNat % 2 ^ left = acc.toNat % 2 ^ bits := by
  induction bits using Nat.strong_induction_on generalizing ds with
  | _ bits ih =>
      match bits, ih, hbits with
      | 0, _, _ | 1, _, _ | 2, _, _ | 3, _, _ | 4, _, _ =>
          exact ⟨[], _, by rw [List.append_nil]; rfl, by decide, rfl, by simp⟩
      | bits + 5, ih, hbits =>
          have hdigit : acc.toNat / 2 ^ bits % 32 < 32 := Nat.mod_lt _ (by decide)
          have hchar : charAt ULID_ALPHABET ((acc >>> UInt32.ofNat bits) &&& 31).toNat =
              ulidText [⟨acc.toNat / 2 ^ bits % 32, hdigit⟩] := by
            rw [toNat_shiftRight_and acc (by omega), ← String.toList_inj, charAt_alphabet hdigit,
              ulidText, String.toList_ofList]
            rfl
          obtain ⟨es, left, hemit, hleft, hcount, hvalue⟩ := ih bits (by omega) (by omega)
            (ds ++ [⟨acc.toNat / 2 ^ bits % 32, hdigit⟩])
          refine ⟨⟨acc.toNat / 2 ^ bits % 32, hdigit⟩ :: es, left, ?_, hleft, ?_, ?_⟩
          · rw [emitChars, hchar, ← ulidText_append, hemit, List.append_assoc]
            rfl
          · rw [List.length_cons]
            omega
          · calc value (⟨acc.toNat / 2 ^ bits % 32, hdigit⟩ :: es) * 2 ^ left + acc.toNat % 2 ^ left
                = acc.toNat / 2 ^ bits % 32 * (32 ^ es.length * 2 ^ left) +
                    (value es * 2 ^ left + acc.toNat % 2 ^ left) := by
                  rw [value_cons]
                  ring
              _ = acc.toNat % 2 ^ bits + 2 ^ bits * (acc.toNat / 2 ^ bits % 32) := by
                  rw [pow_thirtyTwo, ← hcount, hvalue]
                  ring
              _ = acc.toNat % 2 ^ (bits + 5) := by
                  rw [pow_add, Nat.mod_mul]
                  rfl

/-- The digits written and the bits left are the bytes read. -/
structure Packed (bytes : Bytes) (packing : Packing) (ds : List (Fin 32)) : Prop where
  out : packing.out = ulidText ds
  few : packing.bits < 5
  acc : packing.acc.toNat < 2 ^ packing.bits
  count : 8 * bytes.length = 5 * ds.length + packing.bits
  bits : value ds * 2 ^ packing.bits + packing.acc.toNat = bytesValue bytes

theorem bytesValue_concat (bytes : Bytes) (byte : UInt8) :
    bytesValue (bytes ++ [byte]) = bytesValue bytes * 256 + byte.toNat := by
  unfold bytesValue
  rw [List.map_append, List.map_singleton, value_concat]
  rfl

/-- The accumulator with a byte behind it. -/
theorem toNat_shiftLeft_or {acc : UInt32} (h : acc.toNat < 16) (byte : UInt8) :
    ((acc <<< 8) ||| byte.toUInt32).toNat = acc.toNat * 256 + byte.toNat := by
  have hbyte : byte.toNat < 2 ^ 8 := byte.toNat_lt
  rw [UInt32.toNat_or, UInt32.toNat_shiftLeft, UInt8.toNat_toUInt32]
  show acc.toNat <<< 8 % 2 ^ 32 ||| byte.toNat = _
  rw [Nat.shiftLeft_eq, Nat.mod_eq_of_lt (by omega), Nat.mul_comm,
    ← Nat.two_pow_add_eq_or_of_lt hbyte, Nat.mul_comm]

/-- The mask keeps the bits left. -/
theorem toNat_and_mask (acc : UInt32) {bits : Nat} (hbits : bits < 5) :
    (acc &&& ((1 <<< UInt32.ofNat bits) - 1)).toNat = acc.toNat % 2 ^ bits := by
  have hmask : ((1 <<< UInt32.ofNat bits) - 1 : UInt32).toNat = 2 ^ bits - 1 := by
    match bits, hbits with
    | 0, _ | 1, _ | 2, _ | 3, _ | 4, _ => rfl
  rw [UInt32.toNat_and, hmask, Nat.and_two_pow_sub_one_eq_mod]

/-- One byte. -/
theorem packed_packByte {bytes : Bytes} {packing : Packing} {ds : List (Fin 32)}
    (h : Packed bytes packing ds) (byte : UInt8) :
    ∃ ds', Packed (bytes ++ [byte]) (packByte packing byte) ds' := by
  have hsmall : packing.acc.toNat < 16 :=
    Nat.lt_of_lt_of_le h.acc (Nat.pow_le_pow_right (by decide) (by have := h.few; omega) :
      2 ^ packing.bits ≤ 2 ^ 4)
  have hacc := toNat_shiftLeft_or hsmall byte
  obtain ⟨es, left, hemit, hleft, hcount, hvalue⟩ :=
    emitChars_spec ((packing.acc <<< 8) ||| byte.toUInt32) (packing.bits + 8)
      (by have := h.few; omega) ds
  have hall : ((packing.acc <<< 8) ||| byte.toUInt32).toNat % 2 ^ (packing.bits + 8) =
      packing.acc.toNat * 256 + byte.toNat := by
    have hbyte : byte.toNat < 256 := byte.toNat_lt
    have hbound := h.acc
    rw [hacc]
    refine Nat.mod_eq_of_lt ?_
    rw [pow_add]
    omega
  have hturn : packByte packing byte =
      ⟨ulidText (ds ++ es), ((packing.acc <<< 8) ||| byte.toUInt32) &&&
        ((1 <<< UInt32.ofNat left) - 1), left⟩ := by
    unfold packByte
    dsimp only
    rw [h.out, hemit]
  have hpow : 32 ^ es.length * 2 ^ left = 2 ^ packing.bits * 256 := by
    rw [pow_thirtyTwo, ← hcount, pow_add]
    rfl
  rw [hturn]
  refine ⟨ds ++ es, rfl, hleft, ?_, ?_, ?_⟩
  · rw [toNat_and_mask _ hleft]
    exact Nat.mod_lt _ (Nat.two_pow_pos left)
  · have hold := h.count
    rw [List.length_append, List.length_append, List.length_singleton]
    show 8 * (bytes.length + 1) = 5 * (ds.length + es.length) + left
    omega
  · rw [toNat_and_mask _ hleft, bytesValue_concat, ← h.bits]
    calc value (ds ++ es) * 2 ^ left +
          ((packing.acc <<< 8) ||| byte.toUInt32).toNat % 2 ^ left
        = value ds * (32 ^ es.length * 2 ^ left) + (value es * 2 ^ left +
            ((packing.acc <<< 8) ||| byte.toUInt32).toNat % 2 ^ left) := by
          rw [value_append]
          ring
      _ = value ds * (2 ^ packing.bits * 256) + (packing.acc.toNat * 256 + byte.toNat) := by
          rw [hpow, hvalue, hall]
      _ = (value ds * 2 ^ packing.bits + packing.acc.toNat) * 256 + byte.toNat := by ring

/-- All bytes. -/
theorem packed_foldl (bytes : Bytes) : ∃ ds, Packed bytes (bytes.foldl packByte ⟨"", 0, 0⟩) ds := by
  induction bytes using List.reverseRecOn with
  | nil => exact ⟨[], rfl, by decide, by decide, rfl, rfl⟩
  | append_singleton bytes byte ih =>
      obtain ⟨ds, hpacked⟩ := ih
      rw [List.foldl_append]
      exact packed_packByte hpacked byte

/-- Ten bytes are sixteen digits. -/
theorem encodeRandom_eq (random : RandomBytes) :
    ∃ ds : List (Fin 32), encodeRandom random.val = ulidText ds ∧ ds.length = 16 ∧
      value ds = bytesValue random.val := by
  obtain ⟨ds, hpacked⟩ := packed_foldl random.val
  have hcount := hpacked.count
  have hfew := hpacked.few
  have hlength : random.val.length = 10 := random.property
  have hdone : (random.val.foldl packByte ⟨"", 0, 0⟩).bits = 0 := by omega
  refine ⟨ds, hpacked.out, by omega, ?_⟩
  have hacc := hpacked.acc
  rw [← hpacked.bits]
  rw [hdone] at hacc ⊢
  omega

/-! ### Ids -/

/-- An id is the digits of its timestamp and behind them those of its bytes. -/
theorem ulid_eq {t : Nat} (ht : t ≤ ULID_MAX_TIME) (random : RandomBytes) :
    ∃ ds : List (Fin 32),
      ulid t random = some (ulidText (digits 32 ULID_TIME_CHARS t ++ ds)) ∧ ds.length = 16 ∧
        value ds = bytesValue random.val := by
  obtain ⟨ds, hrandom, hlength, hvalue⟩ := encodeRandom_eq random
  refine ⟨ds, ?_, hlength, hvalue⟩
  have hnonneg : ¬ (t : ℚ) < 0 := not_lt.mpr (Nat.cast_nonneg t)
  have hmax : ¬ (ULID_MAX_TIME : ℚ) < t := not_lt.mpr (Nat.cast_le.mpr ht)
  have hint : (t : ℚ).isInt = true := by simp [Rat.isInt]
  unfold ulid
  rw [hint, decide_eq_false hnonneg, decide_eq_false hmax, if_neg (by decide), encodeTime_eq,
    hrandom, ulidText_append]
  rfl

theorem lt_pow_of_le_max {t : Nat} (ht : t ≤ ULID_MAX_TIME) : t < 32 ^ ULID_TIME_CHARS :=
  Nat.lt_of_le_of_lt ht (by decide)

theorem decodeTime_ulidText {t : Nat} (ht : t ≤ ULID_MAX_TIME) (ds : List (Fin 32)) :
    decodeTime (ulidText (digits 32 ULID_TIME_CHARS t ++ ds)) = t := by
  unfold decodeTime
  rw [ulidDigits_ulidText, List.take_left' (length_digits _ _), value_digits (lt_pow_of_le_max ht)]

theorem decodeRandom_ulidText (t : Nat) (ds : List (Fin 32)) :
    decodeRandom (ulidText (digits 32 ULID_TIME_CHARS t ++ ds)) = value ds := by
  unfold decodeRandom
  rw [ulidDigits_ulidText, List.drop_left' (length_digits _ _)]

/-- The first character of a timestamp within 48 bits is `0` to `7`. -/
theorem ULID_PATTERN_ulidText {t : Nat} (ht : t ≤ ULID_MAX_TIME) {ds : List (Fin 32)}
    (hlength : ds.length = 16) :
    ULID_PATTERN (ulidText (digits 32 ULID_TIME_CHARS t ++ ds)) = true := by
  have hlead : ∀ d : Fin 32, d.val < 8 → '0' ≤ ulidChar d ∧ ulidChar d ≤ '7' := by
    decide +kernel
  have hten : (digits 32 ULID_TIME_CHARS t).length = 9 + 1 := length_digits _ _
  obtain ⟨d, es, hdigits⟩ := List.exists_cons_of_length_eq_add_one hten
  have hes : es.length = 9 := by
    rw [hdigits] at hten
    simpa using hten
  have hvalue : d.val * 32 ^ 9 + value es = t := by
    rw [← hes, ← value_cons, ← hdigits, value_digits (lt_pow_of_le_max ht)]
  have hsmall : d.val < 8 := by
    by_contra hlarge
    have hle : 8 * 32 ^ 9 ≤ d.val * 32 ^ 9 := Nat.mul_le_mul_right _ (by omega)
    have hmax : ULID_MAX_TIME < 8 * 32 ^ 9 := by decide
    omega
  have hrest : ((es ++ ds).map ulidChar).all isUlidChar = true := by
    rw [List.all_map, List.all_eq_true]
    intro e _
    exact isUlidChar_ulidChar e
  unfold ULID_PATTERN ulidText
  rw [hdigits, String.toList_ofList, List.cons_append, List.map_cons]
  dsimp only
  rw [hrest, List.length_map, List.length_append, hes, hlength]
  simpa using hlead d hsmall

theorem bytesValue_injective {random random' : RandomBytes}
    (h : bytesValue random.val = bytesValue random'.val) : random = random' := by
  have hlength : (random.val.map UInt8.toFin).length = (random'.val.map UInt8.toFin).length := by
    rw [List.length_map, List.length_map, random.property, random'.property]
  have hinjective : Function.Injective UInt8.toFin := by
    intro byte byte' hsame
    exact UInt8.toNat_inj.mp (congrArg Fin.val hsame)
  exact Subtype.ext (hinjective.list_map (value_injective hlength h))

/-- What `list` leaves out comes behind what it returns. -/
theorem list_append (q : Queue) (status : Option InboxStatus) (limit : Int) :
    ∃ older, (list q status limit ++ older).Perm
        (q.inbox.rows.filter fun row => status.all fun s => row.status = s) ∧
      (list q status limit ++ older).Pairwise fun a b => b.id ≤ a.id := by
  refine ⟨(newestFirst q.inbox status).drop (min (max limit 1) MAX_LIST).toNat, ?_⟩
  rw [list, List.take_append_drop]
  exact ⟨List.perm_insertionSort _ _, List.pairwise_insertionSort _ _⟩

/--
**Ids are valid, can be read back, are no other arrival's, and sort by the time of arrival.**
The id of an earlier arrival is never listed before that of a later one.
-/
theorem ulid_faithful {t t' : Nat} (ht : t ≤ ULID_MAX_TIME) (ht' : t' ≤ ULID_MAX_TIME)
    (random random' : RandomBytes) :
    ∃ id id', ulid t random = some id ∧ ulid t' random' = some id' ∧
      (ULID_PATTERN id = true ∧ decodeTime id = t ∧ decodeRandom id = bytesValue random.val) ∧
      (id = id' → t = t' ∧ random = random') ∧
      (t < t' → id < id' ∧ ∀ q status limit, ∃ older,
        (list q status limit ++ older).Perm
            (q.inbox.rows.filter fun row => status.all fun s => row.status = s) ∧
          (list q status limit ++ older).Pairwise fun a b => ¬ (a.id = id ∧ b.id = id')) := by
  obtain ⟨ds, hid, hds, hrandom⟩ := ulid_eq ht random
  obtain ⟨es, hid', hes, hrandom'⟩ := ulid_eq ht' random'
  refine ⟨_, _, hid, hid', ⟨ULID_PATTERN_ulidText ht hds, decodeTime_ulidText ht ds, ?_⟩, ?_, ?_⟩
  · rw [decodeRandom_ulidText, hrandom]
  · intro hsame
    have htime := congrArg decodeTime hsame
    have hbits := congrArg decodeRandom hsame
    rw [decodeTime_ulidText ht, decodeTime_ulidText ht'] at htime
    rw [decodeRandom_ulidText, decodeRandom_ulidText, hrandom, hrandom'] at hbits
    exact ⟨htime, bytesValue_injective hbits⟩
  · intro hlt
    have hlength : (digits 32 ULID_TIME_CHARS t ++ ds).length =
        (digits 32 ULID_TIME_CHARS t' ++ es).length := by
      rw [List.length_append, List.length_append, length_digits, length_digits, hds, hes]
    have hbefore : ulidText (digits 32 ULID_TIME_CHARS t ++ ds) <
        ulidText (digits 32 ULID_TIME_CHARS t' ++ es) := by
      refine ulidText_lt ((lt_iff_value_lt hlength).mpr ?_)
      have hlow := value_lt ds
      rw [value_append, value_append, value_digits (lt_pow_of_le_max ht),
        value_digits (lt_pow_of_le_max ht'), hes]
      rw [hds] at hlow ⊢
      omega
    refine ⟨hbefore, ?_⟩
    intro q status limit
    obtain ⟨older, hperm, hsorted⟩ := list_append q status limit
    refine ⟨older, hperm, hsorted.imp ?_⟩
    rintro a b hle ⟨ha, hb⟩
    rw [ha, hb] at hle
    exact hle hbefore

theorem ulid_faithful_spec :
    ∃ id id', ulid (1469918176385 : Nat) ⟨[1, 2, 3, 4, 5, 6, 7, 8, 9, 255], rfl⟩ = some id ∧
      ulid (1700000000000 : Nat) ⟨[0, 0, 0, 0, 0, 0, 0, 0, 0, 0], rfl⟩ = some id' ∧
      decodeTime id = 1469918176385 ∧ id ≠ id' ∧ id < id' := by
  obtain ⟨id, id', hid, hid', ⟨-, htime, -⟩, hdistinct, hsorts⟩ :=
    ulid_faithful (show 1469918176385 ≤ ULID_MAX_TIME by decide)
      (show 1700000000000 ≤ ULID_MAX_TIME by decide)
      ⟨[1, 2, 3, 4, 5, 6, 7, 8, 9, 255], rfl⟩ ⟨[0, 0, 0, 0, 0, 0, 0, 0, 0, 0], rfl⟩
  refine ⟨id, id', hid, hid', htime, ?_, (hsorts (by decide)).1⟩
  intro hsame
  exact absurd (hdistinct hsame).1 (by decide)

end MailCloudflare

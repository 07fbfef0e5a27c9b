/-
Message ids: the ULIDs of `worker/src/lib/util.ts`.

JavaScript's bitwise operators work on 32 bits, which is what `UInt32` does; that they read
the result as a signed number is not seen here, since every use of the accumulator is one of
them again.
-/
import MailCloudflare.Base.Unicode
import Mathlib.Data.Rat.Defs

namespace MailCloudflare

open Unicode

/-- Crockford's alphabet: digits + uppercase letters minus I, L, O and U. -/
def ULID_ALPHABET : String := "0123456789ABCDEFGHJKMNPQRSTVWXYZ"

def ULID_TIME_CHARS : Nat := 10

def ULID_RANDOM_BYTES : Nat := 10

/-- 2^48 - 1. -/
def ULID_MAX_TIME : Nat := 281474976710655

/-- `[0-9A-HJKMNP-TV-Z]`. -/
def isUlidChar (c : Char) : Bool :=
  ('0' ≤ c && c ≤ '9') || ('A' ≤ c && c ≤ 'H') || c = 'J' || c = 'K' || c = 'M' || c = 'N' ||
    ('P' ≤ c && c ≤ 'T') || ('V' ≤ c && c ≤ 'Z')

/-- `ULID_PATTERN.test`, a match of `^[0-7][0-9A-HJKMNP-TV-Z]{25}$`. -/
def ULID_PATTERN (id : String) : Bool :=
  match id.toList with
  | [] => false
  | first :: rest => '0' ≤ first && first ≤ '7' && rest.length = 25 && rest.all isUlidChar

/-- `text.charAt(index)`. -/
def charAt (text : String) (index : Nat) : String := String.ofList (text.toList[index]?).toList

/-- The loop of `encodeTime`: how many turns are left, what remains, and the text so far. -/
def encodeTimeFrom : Nat → Nat → String → String
  | 0, _, out => out
  | left + 1, remaining, out =>
    encodeTimeFrom left (remaining / 32) (charAt ULID_ALPHABET (remaining % 32) ++ out)

def encodeTime (ms : Nat) : String := encodeTimeFrom ULID_TIME_CHARS ms ""

/-- `while (bits >= 5)`: the text with the characters that are complete, and the bits left. -/
def emitChars (acc : UInt32) : Nat → String → String × Nat
  | bits + 5, out =>
    emitChars acc bits (out ++ charAt ULID_ALPHABET ((acc >>> UInt32.ofNat bits) &&& 31).toNat)
  | bits, out => (out, bits)

/-- What `encodeRandom` goes on with from one byte to the next. -/
structure Packing where
  out : String
  acc : UInt32
  bits : Nat

/-- One turn of the loop over the bytes. -/
def packByte (packing : Packing) (byte : UInt8) : Packing :=
  let acc := (packing.acc <<< 8) ||| byte.toUInt32
  let (out, bits) := emitChars acc (packing.bits + 8) packing.out
  -- Drop the bits already emitted so the accumulator never grows past 32 bits.
  { out, acc := acc &&& ((1 <<< UInt32.ofNat bits) - 1), bits }

def encodeRandom (bytes : Bytes) : String := (bytes.foldl packByte ⟨"", 0, 0⟩).out

/-- What `crypto.getRandomValues` fills. -/
abbrev RandomBytes := { bytes : Bytes // bytes.length = ULID_RANDOM_BYTES }

/-- A new ULID for `now`, a finite number; `none` is the RangeError. -/
def ulid (now : ℚ) (random : RandomBytes) : Option String :=
  if !now.isInt || now < 0 || ULID_MAX_TIME < now then none
  else some (encodeTime now.num.toNat ++ encodeRandom random.val)

end MailCloudflare

/-
Base64, as RFC 4648 has it, with padding.
-/
import MailCloudflare.Base.Unicode

namespace Base64

open Unicode

def ALPHABET : List Char :=
  "ABCDEFGHIJKLMNOPQRSTUVWXYZabcdefghijklmnopqrstuvwxyz0123456789+/".toList

def digit (n : Nat) : Char := ALPHABET.getD n '='

def value (c : Char) : Option Nat := ALPHABET.idxOf? c

/-- `base64.b64encode`, decoded as ASCII. -/
def encode : Bytes → List Char
  | [] => []
  | [a] => [digit (a.toNat / 4), digit (a.toNat % 4 * 16), '=', '=']
  | [a, b] =>
    [digit (a.toNat / 4), digit (a.toNat % 4 * 16 + b.toNat / 16), digit (b.toNat % 16 * 4), '=']
  | a :: b :: c :: rest =>
    digit (a.toNat / 4) :: digit (a.toNat % 4 * 16 + b.toNat / 16) ::
      digit (b.toNat % 16 * 4 + c.toNat / 64) :: digit (c.toNat % 64) :: encode rest

/-- The byte of eight bits. -/
def byte (n : Nat) : UInt8 := UInt8.ofNat n

/-- What the digits stand for; padding stands at the end only. -/
def decode : List Char → Option Bytes
  | [] => some []
  | w :: x :: y :: z :: rest =>
    match value w, value x, value y, value z with
    | some p, some q, some r, some s =>
      (decode rest).map fun bytes =>
        byte (p * 4 + q / 16) :: byte (q % 16 * 16 + r / 4) :: byte (r % 4 * 64 + s) :: bytes
    | some p, some q, some r, none =>
      if z = '=' ∧ rest = [] then some [byte (p * 4 + q / 16), byte (q % 16 * 16 + r / 4)] else none
    | some p, some q, none, none =>
      if y = '=' ∧ z = '=' ∧ rest = [] then some [byte (p * 4 + q / 16)] else none
    | _, _, _, _ => none
  | _ => none

theorem value_digit {n : Nat} (h : n < 64) : value (digit n) = some n := by
  have hall : ∀ n < 64, value (digit n) = some n := by decide +kernel
  exact hall n h

theorem value_padding : value '=' = none := by decide

theorem byte_eq {n : Nat} {b : UInt8} (h : n = b.toNat) : byte n = b := by
  rw [h, byte, UInt8.ofNat_toNat]

/-- **What is encoded is decoded again.** -/
theorem decode_encode (bytes : Bytes) : decode (encode bytes) = some bytes := by
  have hlt : ∀ b : UInt8, b.toNat < 256 := fun b => b.toNat_lt
  induction bytes using encode.induct with
  | case1 => rfl
  | case2 a =>
      have ha := hlt a
      have hp : a.toNat / 4 < 64 := by omega
      have hq : a.toNat % 4 * 16 < 64 := by omega
      have hbyte : a.toNat / 4 * 4 + a.toNat % 4 * 16 / 16 = a.toNat := by omega
      simp only [encode, decode, value_digit hp, value_digit hq, value_padding, byte_eq hbyte,
        and_self, if_true]
  | case3 a b =>
      have ha := hlt a
      have hb := hlt b
      have hp : a.toNat / 4 < 64 := by omega
      have hq : a.toNat % 4 * 16 + b.toNat / 16 < 64 := by omega
      have hr : b.toNat % 16 * 4 < 64 := by omega
      have hfirst : a.toNat / 4 * 4 + (a.toNat % 4 * 16 + b.toNat / 16) / 16 = a.toNat := by omega
      have hsecond : (a.toNat % 4 * 16 + b.toNat / 16) % 16 * 16 + b.toNat % 16 * 4 / 4 =
          b.toNat := by omega
      simp only [encode, decode, value_digit hp, value_digit hq, value_digit hr, value_padding,
        byte_eq hfirst, byte_eq hsecond, and_self, if_true]
  | case4 a b c rest ih =>
      have ha := hlt a
      have hb := hlt b
      have hc := hlt c
      have hp : a.toNat / 4 < 64 := by omega
      have hq : a.toNat % 4 * 16 + b.toNat / 16 < 64 := by omega
      have hr : b.toNat % 16 * 4 + c.toNat / 64 < 64 := by omega
      have hs : c.toNat % 64 < 64 := by omega
      have hfirst : a.toNat / 4 * 4 + (a.toNat % 4 * 16 + b.toNat / 16) / 16 = a.toNat := by omega
      have hsecond : (a.toNat % 4 * 16 + b.toNat / 16) % 16 * 16 +
          (b.toNat % 16 * 4 + c.toNat / 64) / 4 = b.toNat := by omega
      have hthird : (b.toNat % 16 * 4 + c.toNat / 64) % 4 * 64 + c.toNat % 64 = c.toNat := by omega
      simp only [encode, decode, value_digit hp, value_digit hq, value_digit hr, value_digit hs,
        byte_eq hfirst, byte_eq hsecond, byte_eq hthird, ih, Option.map_some]

end Base64

/-
Numbers and texts of the panel's language, as far as the panel computes with them.
-/
import Mathlib.Data.List.DropRight
import Mathlib.Data.Nat.Log
import Mathlib.Algebra.Order.Ring.Rat

namespace ForwardX.Panel

/-! ## Numbers -/

inductive JsNumber where
  | nan
  | infinity (negative : Bool)
  | finite (q : ℚ)
  deriving DecidableEq

def positiveInteger : JsNumber → ℕ
  | .finite q => if q.den = 1 ∧ 0 < q.num then q.num.toNat else 0
  | _ => 0

def JsNumber.falsy : JsNumber → Bool
  | .nan => true
  | .infinity _ => false
  | .finite q => q = 0

/-- The double that is nearest to a natural number, ties to the even one; `none` is
`Infinity`. -/
def roundToDouble (n : ℕ) : Option ℕ :=
  let unit := 2 ^ (Nat.log 2 n - 52)
  let down := n / unit
  let rest := 2 * (n % unit)
  let rounded := (if unit < rest ∨ (rest = unit ∧ down % 2 = 1) then down + 1 else down) * unit
  if rounded < 2 ^ 1024 then some rounded else none

/-! ## Texts -/

/-- UTF-16 code units, which is what `length` and `slice` count. -/
abbrev JsString := List UInt16

instance : LawfulBEq JsString := inferInstance

/-- White space and line terminators, as `String.prototype.trim` removes them. -/
def isJsSpace (u : UInt16) : Bool :=
  (0x09 ≤ u && u ≤ 0x0D) || u == 0x20 || u == 0xA0 || u == 0x1680 ||
    (0x2000 ≤ u && u ≤ 0x200A) || u == 0x2028 || u == 0x2029 || u == 0x202F ||
    u == 0x205F || u == 0x3000 || u == 0xFEFF

def trim (s : JsString) : JsString := (s.dropWhile isJsSpace).rdropWhile isJsSpace

def js (s : String) : JsString := s.toList.map fun c => UInt16.ofNat c.toNat

/-- `toLowerCase` and `toUpperCase`, on the letters that the texts here consist of or are
compared with. Of the other code units, only those of `İ` and the Kelvin sign have a
lower case among them, `i` and `k`. -/
def toLowerUnit (u : UInt16) : UInt16 := if 0x41 ≤ u && u ≤ 0x5A then u + 0x20 else u

def toLowerCase (s : JsString) : JsString := s.map toLowerUnit

def toUpperCase (s : JsString) : JsString :=
  s.map fun u => if 0x61 ≤ u && u ≤ 0x7A then u - 0x20 else u

def isDigit (u : UInt16) : Bool := 0x30 ≤ u && u ≤ 0x39

def decimalValue (s : JsString) : ℕ := s.foldl (fun n u => n * 10 + (u.toNat - 0x30)) 0

/-- `String(n)`, below 10²¹, where no exponent is printed. -/
def decimalText (n : ℕ) : JsString := (Nat.toDigits 10 n).map fun c => UInt16.ofNat c.toNat

/-! ## Hexadecimal -/

def hexDigits : JsString :=
  [0x30, 0x31, 0x32, 0x33, 0x34, 0x35, 0x36, 0x37, 0x38, 0x39, 0x61, 0x62, 0x63, 0x64, 0x65, 0x66]

def hex (bs : List UInt8) : JsString :=
  bs.flatMap fun b => [hexDigits.getD (b.toNat / 16) 0, hexDigits.getD (b.toNat % 16) 0]

def hexValue (u : UInt16) : Option ℕ := hexDigits.idxOf? (toLowerUnit u)

def fromHex : JsString → List UInt8
  | a :: b :: s =>
    match hexValue a, hexValue b with
    | some x, some y => UInt8.ofNat (16 * x + y) :: fromHex s
    | _, _ => []
  | _ => []

def LowerHex (s : JsString) : Prop := s.length % 2 = 0 ∧ ∀ u ∈ s, u ∈ hexDigits

instance LowerHex.decidable (s : JsString) : Decidable (LowerHex s) :=
  @instDecidableAnd _ _ inferInstance (List.decidableBAll _ s)

theorem hex_fromHex_pair : ∀ a ∈ hexDigits, ∀ b ∈ hexDigits, ∃ x ∈ (hexValue a), ∃ y ∈ (hexValue b),
    hex [UInt8.ofNat (16 * x + y)] = [a, b] := by
  have hall : hexDigits.all fun a => hexDigits.all fun b => decide (∃ x ∈ hexValue a, ∃ y ∈ hexValue b,
      hex [UInt8.ofNat (16 * x + y)] = [a, b]) := by
    decide +kernel
  simpa only [List.all_eq_true, decide_eq_true_eq] using hall

theorem hex_fromHex {s : JsString} (h : LowerHex s) : hex (fromHex s) = s := by
  induction s using fromHex.induct with
  | case1 a b s x y hy hx ih =>
    obtain ⟨hlen, hall⟩ := h
    obtain ⟨x', hx', y', hy', hpair⟩ := hex_fromHex_pair a (hall a (by simp)) b (hall b (by simp))
    rw [Option.mem_def, hx, Option.some.injEq] at hx'
    rw [Option.mem_def, hy, Option.some.injEq] at hy'
    have hrest : LowerHex s := by
      refine ⟨?_, fun u hu => hall u (by simp [hu])⟩
      rw [List.length_cons, List.length_cons] at hlen
      omega
    subst hx' hy'
    simp only [fromHex, hx, hy]
    have happend : hex (UInt8.ofNat (16 * x + y) :: fromHex s)
        = hex [UInt8.ofNat (16 * x + y)] ++ hex (fromHex s) := by
      simp [hex]
    rw [happend, hpair, ih hrest]
    rfl
  | case2 a b s hbad =>
    obtain ⟨x, hx, y, hy, -⟩ := hex_fromHex_pair a (h.2 a (by simp)) b (h.2 b (by simp))
    exact absurd hy (hbad x y hx)
  | case3 s hs =>
    cases s with
    | nil => rfl
    | cons a s =>
      cases s with
      | nil => exact absurd h.1 (by simp)
      | cons b s => exact absurd rfl (hs a b s)

theorem fromHex_inj {s s' : JsString} (h : LowerHex s) (h' : LowerHex s') (heq : fromHex s = fromHex s') :
    s = s' := by
  rw [← hex_fromHex h, heq, hex_fromHex h']

end ForwardX.Panel

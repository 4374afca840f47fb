/-
JSON values and the texts that encoders make of them.

Encoders agree on everything but the characters they escape in a string.
-/
import Mathlib.Algebra.Group.Int.Defs
import Mathlib.Algebra.GroupWithZero.Nat
import Mathlib.Data.String.Basic

namespace ForwardX

/-- A value whose numbers are whole. -/
inductive Json where
  | null
  | bool (b : Bool)
  | int (n : ℤ)
  | str (s : String)
  | arr (items : List Json)
  | obj (fields : List (String × Json))

namespace Json

/-! ## Encoding -/

def quote (escape : Char → List Char) (s : String) : String :=
  "\"" ++ String.ofList (s.toList.flatMap escape) ++ "\""

mutual

def render (escape : Char → List Char) : Json → String
  | .null => "null"
  | .bool b => if b then "true" else "false"
  | .int n => toString n
  | .str s => quote escape s
  | .arr items => "[" ++ renderItems escape items ++ "]"
  | .obj fields => "\x7b" ++ renderFields escape fields ++ "\x7d"

def renderItems (escape : Char → List Char) : List Json → String
  | [] => ""
  | [v] => render escape v
  | v :: w :: rest => render escape v ++ "," ++ renderItems escape (w :: rest)

def renderFields (escape : Char → List Char) : List (String × Json) → String
  | [] => ""
  | [(key, v)] => quote escape key ++ ":" ++ render escape v
  | (key, v) :: f :: rest =>
    quote escape key ++ ":" ++ render escape v ++ "," ++ renderFields escape (f :: rest)

end

mutual

def keys : Json → List String
  | .arr items => keysItems items
  | .obj fields => keysFields fields
  | _ => []

def keysItems : List Json → List String
  | [] => []
  | v :: rest => keys v ++ keysItems rest

def keysFields : List (String × Json) → List String
  | [] => []
  | (key, v) :: rest => key :: (keys v ++ keysFields rest)

end

mutual

/-- All strings in a value, its keys among them. -/
def texts : Json → List String
  | .str s => [s]
  | .arr items => textsItems items
  | .obj fields => textsFields fields
  | _ => []

def textsItems : List Json → List String
  | [] => []
  | v :: rest => texts v ++ textsItems rest

def textsFields : List (String × Json) → List String
  | [] => []
  | (key, v) :: rest => key :: (texts v ++ textsFields rest)

end

def field (fields : List (String × Json)) (key : String) : Option Json :=
  (fields.find? fun f => f.1 == key).map Prod.snd

section

variable {P : String → Prop}

theorem forall_keysItems {items : List Json} :
    (∀ key ∈ keysItems items, P key) ↔ ∀ v ∈ items, ∀ key ∈ keys v, P key := by
  induction items with
  | nil => simp [keysItems]
  | cons v rest ih => rw [keysItems, List.forall_mem_append, ih, List.forall_mem_cons]

theorem forall_keysFields {fields : List (String × Json)} :
    (∀ key ∈ keysFields fields, P key) ↔ ∀ f ∈ fields, P f.1 ∧ ∀ key ∈ keys f.2, P key := by
  induction fields with
  | nil => simp [keysFields]
  | cons f rest ih =>
    rw [keysFields, List.forall_mem_cons, List.forall_mem_append, ih, List.forall_mem_cons, and_assoc]

theorem forall_textsItems {items : List Json} :
    (∀ s ∈ textsItems items, P s) ↔ ∀ v ∈ items, ∀ s ∈ texts v, P s := by
  induction items with
  | nil => simp [textsItems]
  | cons v rest ih => rw [textsItems, List.forall_mem_append, ih, List.forall_mem_cons]

theorem forall_textsFields {fields : List (String × Json)} :
    (∀ s ∈ textsFields fields, P s) ↔ ∀ f ∈ fields, P f.1 ∧ ∀ s ∈ texts f.2, P s := by
  induction fields with
  | nil => simp [textsFields]
  | cons f rest ih =>
    rw [textsFields, List.forall_mem_cons, List.forall_mem_append, ih, List.forall_mem_cons, and_assoc]

end

/-! ## Two encoders -/

def shortEscape : ℕ → Option Char
  | 0x08 => some 'b'
  | 0x09 => some 't'
  | 0x0a => some 'n'
  | 0x0c => some 'f'
  | 0x0d => some 'r'
  | 0x22 => some (Char.ofNat 0x22)
  | 0x5c => some (Char.ofNat 0x5c)
  | _ => none

def unicodeEscape (n : ℕ) : List Char :=
  Char.ofNat 0x5c :: 'u' :: [n / 4096, n / 256, n / 16, n].map fun d => Nat.digitChar (d % 16)

/-- The escapes of `JSON.stringify`. -/
def jsEscape (c : Char) : List Char :=
  match shortEscape c.toNat with
  | some letter => [Char.ofNat 0x5c, letter]
  | none => if c.toNat < 0x20 then unicodeEscape c.toNat else [c]

/-- The escapes of `json.Marshal`. -/
def goEscape (c : Char) : List Char :=
  match shortEscape c.toNat with
  | some letter => [Char.ofNat 0x5c, letter]
  | none =>
    if c.toNat < 0x20 ∨ c.toNat ∈ [0x26, 0x3c, 0x3e, 0x2028, 0x2029] then unicodeEscape c.toNat else [c]

/-- A character that stands for itself in both. -/
def Plain (c : Char) : Prop :=
  0x20 ≤ c.toNat ∧ c.toNat < 0x7f ∧ c.toNat ∉ [0x22, 0x26, 0x3c, 0x3e, 0x5c]

instance (c : Char) : Decidable (Plain c) :=
  inferInstanceAs (Decidable
    (0x20 ≤ c.toNat ∧ c.toNat < 0x7f ∧ c.toNat ∉ [0x22, 0x26, 0x3c, 0x3e, 0x5c]))

def PlainText (s : String) : Prop := ∀ c ∈ s.toList, Plain c

instance (s : String) : Decidable (PlainText s) := List.decidableBAll Plain s.toList

theorem plainText_ofList {cs : List Char} (h : (cs.all fun c => Plain c) = true) :
    PlainText (String.ofList cs) := by
  rw [PlainText, String.toList_ofList]
  simpa only [List.all_eq_true, decide_eq_true_eq] using h

theorem utf8Size_plain {c : Char} (h : Plain c) : c.utf8Size = 1 :=
  Char.utf8Size_eq_one_iff.mpr (UInt32.le_iff_toNat_le.mpr (Nat.le_of_lt h.2.1))

theorem size_ofList {cs : List Char} (h : ∀ c ∈ cs, Plain c) : (String.ofList cs).utf8ByteSize = cs.length := by
  rw [String.utf8ByteSize_ofList]
  induction cs with
  | nil => rfl
  | cons c cs ih =>
    obtain ⟨hc, hcs⟩ := List.forall_mem_cons.mp h
    rw [String.utf8Len_cons, utf8Size_plain hc, ih hcs, List.length_cons]

theorem shortEscape_plain {c : Char} (h : Plain c) : shortEscape c.toNat = none := by
  obtain ⟨hlow, -, hnot⟩ := h
  simp only [List.mem_cons, List.not_mem_nil, or_false, not_or] at hnot
  unfold shortEscape
  split
  case h_8 => rfl
  all_goals omega

theorem jsEscape_plain {c : Char} (h : Plain c) : jsEscape c = [c] := by
  rw [jsEscape, shortEscape_plain h]
  exact if_neg (by have := h.1; omega)

theorem goEscape_plain {c : Char} (h : Plain c) : goEscape c = [c] := by
  rw [goEscape, shortEscape_plain h]
  refine if_neg fun hbad => ?_
  obtain ⟨hlow, hhigh, hnot⟩ := h
  simp only [List.mem_cons, List.not_mem_nil, or_false, not_or] at hbad hnot
  omega

section

variable {escape escape' : Char → List Char}

theorem quote_congr {s : String} (h : ∀ c ∈ s.toList, escape c = escape' c) :
    quote escape s = quote escape' s := by
  unfold quote
  rw [List.flatMap_congr h]

mutual

theorem render_congr (v : Json) (h : ∀ s ∈ texts v, ∀ c ∈ s.toList, escape c = escape' c) :
    render escape v = render escape' v := by
  cases v with
  | null => rfl
  | bool b => rfl
  | int n => rfl
  | str s => exact quote_congr (h s List.mem_cons_self)
  | arr items => rw [render, render, renderItems_congr items h]
  | obj fields => rw [render, render, renderFields_congr fields h]

theorem renderItems_congr (items : List Json)
    (h : ∀ s ∈ textsItems items, ∀ c ∈ s.toList, escape c = escape' c) :
    renderItems escape items = renderItems escape' items := by
  cases items with
  | nil => rfl
  | cons v rest =>
    have hv := render_congr v fun s hs => h s (List.mem_append_left _ hs)
    cases rest with
    | nil => exact hv
    | cons w rest =>
      rw [renderItems, renderItems, hv,
        renderItems_congr (w :: rest) fun s hs => h s (List.mem_append_right _ hs)]

theorem renderFields_congr (fields : List (String × Json))
    (h : ∀ s ∈ textsFields fields, ∀ c ∈ s.toList, escape c = escape' c) :
    renderFields escape fields = renderFields escape' fields := by
  cases fields with
  | nil => rfl
  | cons f rest =>
    obtain ⟨key, v⟩ := f
    have hkey := quote_congr (h key List.mem_cons_self)
    have hv := render_congr v fun s hs =>
      h s (List.mem_cons_of_mem _ (List.mem_append_left _ hs))
    cases rest with
    | nil => rw [renderFields, renderFields, hkey, hv]
    | cons f rest =>
      rw [renderFields, renderFields, hkey, hv, renderFields_congr (f :: rest) fun s hs =>
        h s (List.mem_cons_of_mem _ (List.mem_append_right _ hs))]

end

end

/-! ## Sizes -/

section

variable {escape : Char → List Char}

/-- The bytes of a value's text. -/
def size (escape : Char → List Char) (v : Json) : ℕ := (render escape v).utf8ByteSize

theorem size_quote {s : String} (h : ∀ c ∈ s.toList, escape c = [c]) :
    (quote escape s).utf8ByteSize = s.utf8ByteSize + 2 := by
  have hsame : s.toList.flatMap escape = s.toList :=
    (List.flatMap_congr h).trans (List.flatMap_singleton' _)
  rw [quote, hsame, String.ofList_toList, String.utf8ByteSize_append, String.utf8ByteSize_append]
  simp only [show "\"".utf8ByteSize = 1 from rfl]
  omega

theorem size_arr_le {items : List Json} {n : ℕ} (h : ∀ v ∈ items, size escape v + 1 ≤ n) :
    size escape (.arr items) ≤ 2 + items.length * n := by
  have hitems : (renderItems escape items).utf8ByteSize ≤ items.length * n := by
    induction items with
    | nil => exact Nat.zero_le _
    | cons v rest ih =>
      have hv := h v List.mem_cons_self
      unfold size at hv
      cases rest with
      | nil =>
        rw [renderItems, List.length_singleton, Nat.one_mul]
        omega
      | cons w rest =>
        have hrest := ih fun x hx => h x (List.mem_cons_of_mem _ hx)
        rw [renderItems, String.utf8ByteSize_append, String.utf8ByteSize_append, List.length_cons,
          Nat.succ_mul]
        simp only [show ",".utf8ByteSize = 1 from rfl]
        omega
  unfold size
  rw [render, String.utf8ByteSize_append, String.utf8ByteSize_append]
  simp only [show "[".utf8ByteSize = 1 from rfl, show "]".utf8ByteSize = 1 from rfl]
  omega

theorem size_obj_le (escape : Char → List Char) (fields : List (String × Json)) :
    size escape (.obj fields) ≤
      2 + (fields.map fun f => (quote escape f.1).utf8ByteSize + 2 + size escape f.2).sum := by
  have hfields : (renderFields escape fields).utf8ByteSize ≤
      (fields.map fun f => (quote escape f.1).utf8ByteSize + 2 + size escape f.2).sum := by
    induction fields with
    | nil => exact Nat.zero_le _
    | cons f rest ih =>
      obtain ⟨key, v⟩ := f
      rw [List.map_cons, List.sum_cons]
      unfold size at ih ⊢
      cases rest with
      | nil =>
        rw [renderFields, String.utf8ByteSize_append, String.utf8ByteSize_append]
        simp only [show ":".utf8ByteSize = 1 from rfl]
        omega
      | cons g rest =>
        rw [renderFields]
        simp only [String.utf8ByteSize_append, show ":".utf8ByteSize = 1 from rfl,
          show ",".utf8ByteSize = 1 from rfl]
        omega
  unfold size at hfields ⊢
  rw [render, String.utf8ByteSize_append, String.utf8ByteSize_append]
  simp only [show "\x7b".utf8ByteSize = 1 from rfl, show "\x7d".utf8ByteSize = 1 from rfl]
  omega

theorem utf8Len_le (cs : List Char) : String.utf8Len cs ≤ 4 * cs.length := by
  induction cs with
  | nil => exact Nat.zero_le _
  | cons c cs ih =>
    have := c.utf8Size_le_four
    rw [String.utf8Len_cons, List.length_cons]
    omega

theorem size_int_le {n : ℤ} {k : ℕ} (hk : 0 < k) (hlow : 0 ≤ n) (hhigh : n < 10 ^ k) :
    size escape (.int n) ≤ 4 * k := by
  obtain ⟨m, rfl⟩ := Int.eq_ofNat_of_zero_le hlow
  have hm : m < 10 ^ k := by exact_mod_cast hhigh
  have hlength : m.repr.length ≤ k := (Nat.length_repr_le_iff hk).mpr hm
  have hbytes := utf8Len_le m.repr.toList
  rw [String.utf8Len_toList, String.length_toList] at hbytes
  show m.repr.utf8ByteSize ≤ 4 * k
  omega

end

end Json

end ForwardX

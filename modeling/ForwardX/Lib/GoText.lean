/-
Go strings as their bytes: `strings.Fields`, `strings.TrimSpace`, `strconv.Atoi` and what
`encoding/json` makes of a text.

A string that comes off the wire is any bytes, so white space is recognised by the encodings of its
code points and not by a decoded text. What is proved is what a reader of such strings needs: a text
without white space is one field and is trimmed to itself, a printed number is read back, and JSON
carries valid UTF-8 as it is.
-/
import Mathlib.Algebra.Group.Int.Defs
import Mathlib.Algebra.Group.Nat.Defs
import Mathlib.Data.List.DropRight
import Mathlib.Data.List.Infix

namespace ForwardX.GoText

abbrev Bytes := List UInt8

/-- `unicode.IsSpace`. -/
def isSpace (c : Char) : Bool :=
  ('\t' ≤ c && c ≤ '\r') || c == ' ' || c.toNat == 0x85 || c.toNat == 0xA0 ||
    c.toNat == 0x1680 || (0x2000 ≤ c.toNat && c.toNat ≤ 0x200A) || c.toNat == 0x2028 ||
    c.toNat == 0x2029 || c.toNat == 0x202F || c.toNat == 0x205F || c.toNat == 0x3000

def ascii (text : List Char) : Bytes := text.map fun c => UInt8.ofNat c.toNat

/-! ## Texts by their code points

`strings.TrimSpace` and `strconv.Itoa` of texts that are not followed byte by byte. -/

def Runes.trimSpace (s : List Char) : List Char := (s.dropWhile isSpace).rdropWhile isSpace

def Runes.itoa (n : ℤ) : List Char := (toString n).toList

def Text.trimSpace (value : String) : String := String.ofList (Runes.trimSpace value.toList)

theorem Runes.trimSpace_trimSpace (s : List Char) : trimSpace (trimSpace s) = trimSpace s := by
  have hhead : (trimSpace s).dropWhile isSpace = trimSpace s := by
    rw [List.dropWhile_eq_self_iff]
    intro hpos
    obtain ⟨rest, hrest⟩ := List.rdropWhile_prefix isSpace (l := s.dropWhile isSpace)
    obtain ⟨c, cs, hcs⟩ := List.exists_cons_of_ne_nil (List.ne_nil_of_length_pos hpos)
    have hdrop : s.dropWhile isSpace = c :: (cs ++ rest) := by
      rw [← hrest, show (s.dropWhile isSpace).rdropWhile isSpace = c :: cs from hcs, List.cons_append]
    have hfirst := List.head?_dropWhile_not isSpace s
    simpa [hcs, hdrop] using hfirst
  conv_lhs => rw [trimSpace, hhead]
  exact List.rdropWhile_idempotent isSpace _

theorem Text.trimSpace_trimSpace (value : String) : trimSpace (trimSpace value) = trimSpace value := by
  rw [trimSpace, trimSpace, String.toList_ofList, Runes.trimSpace_trimSpace]

/-! ## White space -/

/-- The encodings of the code points of `unicode.IsSpace`. -/
def spaces : List Bytes :=
  [[0x09], [0x0a], [0x0b], [0x0c], [0x0d], [0x20], [0xc2, 0x85], [0xc2, 0xa0], [0xe1, 0x9a, 0x80],
    [0xe2, 0x80, 0x80], [0xe2, 0x80, 0x81], [0xe2, 0x80, 0x82], [0xe2, 0x80, 0x83],
    [0xe2, 0x80, 0x84], [0xe2, 0x80, 0x85], [0xe2, 0x80, 0x86], [0xe2, 0x80, 0x87],
    [0xe2, 0x80, 0x88], [0xe2, 0x80, 0x89], [0xe2, 0x80, 0x8a], [0xe2, 0x80, 0xa8],
    [0xe2, 0x80, 0xa9], [0xe2, 0x80, 0xaf], [0xe2, 0x81, 0x9f], [0xe3, 0x80, 0x80]]

/-- The length of the white space at the head of a text, zero if there is none. -/
def spaceLen (table : List Bytes) (s : Bytes) : ℕ :=
  match table.find? fun sp => sp.isPrefixOf s with
  | none => 0
  | some sp => sp.length

/-- The scan of `strings.Fields`: `skip` bytes of white space are left, `word` is begun. -/
def fieldsFrom : ℕ → Bytes → Bytes → List Bytes
  | _, word, [] => if word = [] then [] else [word]
  | skip + 1, word, _ :: rest => fieldsFrom skip word rest
  | 0, word, b :: rest =>
    match spaceLen spaces (b :: rest) with
    | 0 => fieldsFrom 0 (word ++ [b]) rest
    | n + 1 => (if word = [] then [] else [word]) ++ fieldsFrom n [] rest

def fields (s : Bytes) : List Bytes := fieldsFrom 0 [] s

/-- A text without the white space at its head, in the encodings of `table`. -/
def trimLeft (table : List Bytes) : ℕ → Bytes → Bytes
  | _, [] => []
  | skip + 1, _ :: rest => trimLeft table skip rest
  | 0, b :: rest =>
    match spaceLen table (b :: rest) with
    | 0 => b :: rest
    | n + 1 => trimLeft table n rest

def trimSpace (s : Bytes) : Bytes :=
  (trimLeft (spaces.map List.reverse) 0 (trimLeft spaces 0 s).reverse).reverse

/-! ## UTF-8 -/

/-- The byte ranges of the encodings of code points, as `unicode/utf8` accepts them. -/
def runeForms : List (List (UInt8 × UInt8)) :=
  [[(0x00, 0x7f)], [(0xc2, 0xdf), (0x80, 0xbf)], [(0xe0, 0xe0), (0xa0, 0xbf), (0x80, 0xbf)],
    [(0xe1, 0xec), (0x80, 0xbf), (0x80, 0xbf)], [(0xed, 0xed), (0x80, 0x9f), (0x80, 0xbf)],
    [(0xee, 0xef), (0x80, 0xbf), (0x80, 0xbf)],
    [(0xf0, 0xf0), (0x90, 0xbf), (0x80, 0xbf), (0x80, 0xbf)],
    [(0xf1, 0xf3), (0x80, 0xbf), (0x80, 0xbf), (0x80, 0xbf)],
    [(0xf4, 0xf4), (0x80, 0x8f), (0x80, 0xbf), (0x80, 0xbf)]]

def hasForm : List (UInt8 × UInt8) → Bytes → Bool
  | [], _ => true
  | _ :: _, [] => false
  | (lo, hi) :: form, b :: rest => lo ≤ b && b ≤ hi && hasForm form rest

/-- The length of the code point at the head of a text, zero if there is none. -/
def runeLen (s : Bytes) : ℕ :=
  match runeForms.find? fun form => hasForm form s with
  | none => 0
  | some form => form.length

/-- `utf8.Valid`, after `skip` bytes. -/
def validFrom : ℕ → Bytes → Bool
  | _, [] => true
  | skip + 1, _ :: rest => validFrom skip rest
  | 0, b :: rest =>
    match runeLen (b :: rest) with
    | 0 => false
    | n + 1 => validFrom n rest

/-- A text that `json.Marshal` has written and `json.Unmarshal` has read: a byte that belongs to no
code point has become U+FFFD. -/
def jsonFrom : ℕ → Bytes → Bytes
  | _, [] => []
  | skip + 1, b :: rest => b :: jsonFrom skip rest
  | 0, b :: rest =>
    match runeLen (b :: rest) with
    | 0 => [0xef, 0xbf, 0xbd] ++ jsonFrom 0 rest
    | n + 1 => b :: jsonFrom n rest

def validUTF8 (s : Bytes) : Bool := validFrom 0 s

def overJSON (s : Bytes) : Bytes := jsonFrom 0 s

theorem jsonFrom_of_valid {s : Bytes} : ∀ {skip}, validFrom skip s = true → jsonFrom skip s = s := by
  induction s with
  | nil => intro skip _; cases skip <;> rfl
  | cons b rest ih =>
    intro skip h
    cases skip with
    | succ skip => exact congrArg (b :: ·) (ih h)
    | zero =>
      unfold validFrom at h
      unfold jsonFrom
      split at h
      · cases h
      · exact congrArg (b :: ·) (ih h)

/-- JSON carries valid UTF-8 as it is. -/
theorem overJSON_of_valid {s : Bytes} (h : validUTF8 s = true) : overJSON s = s := jsonFrom_of_valid h

/-! ## Words -/

theorem spaceLen_eq_zero {table : List Bytes} {s : Bytes} (h : ∀ sp ∈ table, ¬sp <+: s) :
    spaceLen table s = 0 := by
  unfold spaceLen
  rw [List.find?_eq_none.mpr fun sp hsp => by simpa using h sp hsp]

theorem length_pos_of_mem_spaces : ∀ sp ∈ spaces, 0 < sp.length := by decide

theorem not_isPrefix_of_spaceLen {s : Bytes} (h : spaceLen spaces s = 0) {sp : Bytes}
    (hsp : sp ∈ spaces) : ¬sp <+: s := by
  intro hprefix
  unfold spaceLen at h
  cases hfind : spaces.find? fun sp => sp.isPrefixOf s with
  | none => exact absurd (by simpa using hprefix) (List.find?_eq_none.mp hfind sp hsp)
  | some sp' =>
    rw [hfind] at h
    exact absurd h (length_pos_of_mem_spaces sp' (List.mem_of_find?_eq_some hfind)).ne'

theorem spaceLen_eq_zero_iff {s : Bytes} : spaceLen spaces s = 0 ↔ ∀ sp ∈ spaces, ¬sp <+: s :=
  ⟨fun h _ hsp => not_isPrefix_of_spaceLen h hsp, spaceLen_eq_zero⟩

theorem high_of_mem_tail_spaces : ∀ sp ∈ spaces, ∀ b ∈ sp.tail, 0x80 ≤ b := by decide +kernel

theorem spaceLen_append {s rest : Bytes} {b : UInt8} (hs : s ≠ []) (hb : b < 0x80)
    (h : spaceLen spaces s = 0) : spaceLen spaces (s ++ b :: rest) = 0 := by
  rw [spaceLen_eq_zero_iff] at h ⊢
  intro sp hsp hprefix
  obtain hin | ⟨more, rfl⟩ :=
    List.prefix_or_prefix_of_prefix hprefix (List.prefix_append s (b :: rest))
  · exact h sp hsp hin
  · cases more with
    | nil => exact h _ hsp (by rw [List.append_nil])
    | cons c more =>
      obtain ⟨rfl, -⟩ :=
        List.cons_prefix_cons.mp ((List.prefix_append_right_inj s).mp hprefix)
      cases s with
      | nil => exact hs rfl
      | cons x s =>
        have hhigh := high_of_mem_tail_spaces _ hsp c
          (List.mem_append_right s List.mem_cons_self)
        exact absurd hb (UInt8.not_lt.mpr hhigh)

def Word (t : Bytes) : Prop := t ≠ [] ∧ ∀ s, s ≠ [] → s <:+ t → spaceLen spaces s = 0

theorem head_of_mem_spaces : ∀ sp ∈ spaces, ∀ b ∈ sp.head?, b ≤ 0x20 ∨ 0x80 ≤ b := by decide +kernel

theorem spaceLen_printable {b : UInt8} (hlow : 0x20 < b) (hhigh : b < 0x80) (rest : Bytes) :
    spaceLen spaces (b :: rest) = 0 := by
  refine spaceLen_eq_zero fun sp hsp hprefix => ?_
  cases sp with
  | nil => exact absurd (length_pos_of_mem_spaces _ hsp) (lt_irrefl 0)
  | cons c sp =>
    obtain ⟨rfl, -⟩ := List.cons_prefix_cons.mp hprefix
    obtain hle | hge := head_of_mem_spaces _ hsp c rfl
    · exact absurd hlow (UInt8.not_lt.mpr hle)
    · exact absurd hhigh (UInt8.not_lt.mpr hge)

theorem word_printable {t : Bytes} (hne : t ≠ []) (h : ∀ b ∈ t, 0x20 < b ∧ b < 0x80) : Word t := by
  refine ⟨hne, fun s hs hsuffix => ?_⟩
  cases s with
  | nil => exact absurd rfl hs
  | cons b s =>
    obtain ⟨hlow, hhigh⟩ := h b (hsuffix.subset List.mem_cons_self)
    exact spaceLen_printable hlow hhigh s

theorem Word.notMem {t : Bytes} (h : Word t) {b : UInt8} (hb : [b] ∈ spaces) : b ∉ t := by
  intro hmem
  obtain ⟨before, after, rfl⟩ := List.append_of_mem hmem
  exact not_isPrefix_of_spaceLen (h.2 (b :: after) (List.cons_ne_nil _ _) (List.suffix_append _ _))
    hb ⟨after, rfl⟩

/-! ## Splitting a line -/

theorem fieldsFrom_cons {b : UInt8} {rest : Bytes} (h : spaceLen spaces (b :: rest) = 0)
    (word : Bytes) : fieldsFrom 0 word (b :: rest) = fieldsFrom 0 (word ++ [b]) rest := by
  rw [fieldsFrom, h]

theorem fieldsFrom_append {t rest : Bytes} {b : UInt8} (hb : b < 0x80)
    (h : ∀ s, s ≠ [] → s <:+ t → spaceLen spaces s = 0) (word : Bytes) :
    fieldsFrom 0 word (t ++ b :: rest) = fieldsFrom 0 (word ++ t) (b :: rest) := by
  induction t generalizing word with
  | nil => rw [List.nil_append, List.append_nil]
  | cons c t ih =>
    have hhead : spaceLen spaces (c :: t ++ b :: rest) = 0 :=
      spaceLen_append (List.cons_ne_nil c t) hb (h _ (List.cons_ne_nil c t) (List.suffix_refl _))
    rw [List.cons_append] at hhead ⊢
    rw [fieldsFrom_cons hhead,
      ih fun s hs hsuffix => h s hs (hsuffix.trans (List.suffix_cons c t)), List.append_assoc]
    rfl

theorem fieldsFrom_end {t : Bytes} (h : ∀ s, s ≠ [] → s <:+ t → spaceLen spaces s = 0)
    (word : Bytes) : fieldsFrom 0 word t = fieldsFrom 0 (word ++ t) [] := by
  induction t generalizing word with
  | nil => rw [List.append_nil]
  | cons c t ih =>
    rw [fieldsFrom_cons (h _ (List.cons_ne_nil c t) (List.suffix_refl _)),
      ih fun s hs hsuffix => h s hs (hsuffix.trans (List.suffix_cons c t)), List.append_assoc]
    rfl

theorem spaceLen_space (rest : Bytes) : spaceLen spaces (0x20 :: rest) = 1 := rfl

def unwords : List Bytes → Bytes
  | [] => []
  | [t] => t
  | t :: t' :: ts => t ++ 0x20 :: unwords (t' :: ts)

theorem fields_unwords {ts : List Bytes} (h : ∀ t ∈ ts, Word t) : fields (unwords ts) = ts := by
  induction ts with
  | nil => rfl
  | cons t ts ih =>
    have ht := h t List.mem_cons_self
    cases ts with
    | nil =>
      rw [unwords, fields, fieldsFrom_end ht.2, List.nil_append, fieldsFrom, if_neg ht.1]
    | cons t' ts =>
      rw [unwords, fields, fieldsFrom_append (by decide) ht.2, List.nil_append, fieldsFrom,
        spaceLen_space]
      dsimp only
      rw [if_neg ht.1]
      exact congrArg (t :: ·) (ih fun x hx => h x (List.mem_cons_of_mem _ hx))

theorem spaceLen_of_append {s rest : Bytes} (h : spaceLen spaces (s ++ rest) = 0) : spaceLen spaces s = 0 :=
  spaceLen_eq_zero fun _ hsp hprefix =>
    not_isPrefix_of_spaceLen h hsp (List.prefix_append_of_prefix hprefix)

theorem word_of_begun {word rest t : Bytes} (hword : ∀ s, s ≠ [] → s <:+ word → spaceLen spaces (s ++ rest) = 0)
    (ht : t ∈ if word = [] then [] else [word]) : Word t := by
  by_cases hnil : word = []
  · rw [if_pos hnil] at ht
    cases ht
  · rw [if_neg hnil] at ht
    rw [List.mem_singleton.mp ht]
    exact ⟨hnil, fun s hs hsuffix => spaceLen_of_append (hword s hs hsuffix)⟩

theorem word_of_mem_fieldsFrom {rest : Bytes} {skip : ℕ} {word t : Bytes} (hskip : skip = 0 ∨ word = [])
    (hword : ∀ s, s ≠ [] → s <:+ word → spaceLen spaces (s ++ rest) = 0)
    (ht : t ∈ fieldsFrom skip word rest) : Word t := by
  induction rest generalizing skip word with
  | nil =>
    cases skip with
    | zero => exact word_of_begun hword ht
    | succ skip => exact word_of_begun hword ht
  | cons b rest ih =>
    have hnone : ∀ s : Bytes, s ≠ [] → s <:+ [] → spaceLen spaces (s ++ rest) = 0 :=
      fun s hs hsuffix => absurd (List.suffix_nil.mp hsuffix) hs
    cases skip with
    | succ skip =>
      obtain rfl : word = [] := hskip.resolve_left (Nat.succ_ne_zero _)
      exact ih (.inr rfl) hnone ht
    | zero =>
      cases hspace : spaceLen spaces (b :: rest) with
      | zero =>
        rw [fieldsFrom_cons hspace] at ht
        refine ih (.inl rfl) (fun s hs hsuffix => ?_) ht
        obtain rfl | ⟨s', rfl, hs'⟩ := List.suffix_concat_iff.mp hsuffix
        · exact absurd rfl hs
        · rw [List.append_assoc, List.singleton_append]
          cases s' with
          | nil => exact hspace
          | cons c s' => exact hword _ (List.cons_ne_nil c s') hs'
      | succ n =>
        rw [fieldsFrom, hspace] at ht
        obtain hbegun | hrest := List.mem_append.mp ht
        · exact word_of_begun hword hbegun
        · exact ih (.inr rfl) hnone hrest

theorem word_of_mem_fields {s t : Bytes} (h : t ∈ fields s) : Word t :=
  word_of_mem_fieldsFrom (.inl rfl) (fun _ hs hsuffix => absurd (List.suffix_nil.mp hsuffix) hs) h

theorem trimSpace_word {t : Bytes} (h : Word t) : trimSpace t = t := by
  have hkeep : ∀ {table : List Bytes} {s : Bytes}, spaceLen table s = 0 → trimLeft table 0 s = s := by
    intro table s hs
    cases s with
    | nil => rfl
    | cons b rest => rw [trimLeft, hs]
  have hback : spaceLen (spaces.map List.reverse) t.reverse = 0 := by
    refine spaceLen_eq_zero fun sp hsp hprefix => ?_
    obtain ⟨enc, henc, rfl⟩ := List.mem_map.mp hsp
    have hsuffix : enc <:+ t := List.reverse_prefix.mp hprefix
    have hne : enc ≠ [] := List.ne_nil_of_length_pos (length_pos_of_mem_spaces enc henc)
    exact not_isPrefix_of_spaceLen (h.2 enc hne hsuffix) henc (List.prefix_refl _)
  rw [trimSpace, hkeep (h.2 t h.1 (List.suffix_refl _)), hkeep hback, List.reverse_reverse]

/-! ## Numbers -/

def itoa (n : ℤ) : Bytes := ascii (Runes.itoa n)

def cutSign : List Char → Bool × List Char
  | '-' :: rest => (true, rest)
  | '+' :: rest => (false, rest)
  | rest => (false, rest)

/-- `strconv.Atoi`, on 64 bits. -/
def atoi (s : Bytes) : Option ℤ :=
  let (negative, digits) := cutSign (s.map fun b => Char.ofNat b.toNat)
  if digits = [] ∨ digits.all Char.isDigit = false then none
  else
    let value : ℤ := Nat.ofDigitChars 10 digits 0
    let value := if negative then -value else value
    if value < -2 ^ 63 ∨ 2 ^ 63 ≤ value then none else some value

theorem itoa_natCast (n : ℕ) : itoa n = ascii (Nat.toDigits 10 n) :=
  congrArg ascii Nat.toList_repr

theorem isDigit_of_mem_toDigits {n : ℕ} {c : Char} (h : c ∈ Nat.toDigits 10 n) :
    c.isDigit = true := Nat.isDigit_of_mem_toDigits (by decide) (by decide) h

theorem digit_byte {c : Char} (h : c.isDigit = true) :
    Char.ofNat (UInt8.ofNat c.toNat).toNat = c ∧ 0x20 < UInt8.ofNat c.toNat ∧
      UInt8.ofNat c.toNat < 0x80 := by
  have hrange : 48 ≤ c.toNat ∧ c.toNat ≤ 57 := by
    rw [Char.isDigit, Bool.and_eq_true, decide_eq_true_eq, decide_eq_true_eq] at h
    exact ⟨UInt32.le_iff_toNat_le.mp h.1, UInt32.le_iff_toNat_le.mp h.2⟩
  have hbyte : (UInt8.ofNat c.toNat).toNat = c.toNat := by
    rw [UInt8.toNat_ofNat', Nat.mod_eq_of_lt (by omega)]
  refine ⟨by rw [hbyte, Char.ofNat_toNat], ?_, ?_⟩
  · rw [UInt8.lt_iff_toNat_lt, hbyte]
    exact lt_of_lt_of_le (by decide) hrange.1
  · rw [UInt8.lt_iff_toNat_lt, hbyte]
    exact lt_of_le_of_lt hrange.2 (by decide)

theorem itoa_ne_nil (n : ℕ) : itoa n ≠ [] := by
  rw [itoa_natCast]
  exact fun hnil => absurd (List.map_eq_nil_iff.mp hnil) Nat.toDigits_ne_nil

theorem printable_itoa (n : ℕ) : ∀ b ∈ itoa n, 0x20 < b ∧ b < 0x80 := by
  rw [itoa_natCast]
  intro b hb
  obtain ⟨c, hc, rfl⟩ := List.mem_map.mp hb
  exact (digit_byte (isDigit_of_mem_toDigits hc)).2

theorem word_itoa (n : ℕ) : Word (itoa n) := word_printable (itoa_ne_nil n) (printable_itoa n)

theorem cutSign_digits {l : List Char} (h : ∀ c ∈ l, c.isDigit = true) : cutSign l = (false, l) := by
  unfold cutSign
  split
  · exact absurd (h '-' List.mem_cons_self) (by decide)
  · exact absurd (h '+' List.mem_cons_self) (by decide)
  · rfl

theorem atoi_itoa {n : ℕ} (h : n < 2 ^ 63) : atoi (itoa n) = some (n : ℤ) := by
  have hchars : (itoa n).map (fun b => Char.ofNat b.toNat) = Nat.toDigits 10 n := by
    rw [itoa_natCast, ascii, List.map_map]
    exact (List.map_congr_left fun c hc => (digit_byte (isDigit_of_mem_toDigits hc)).1).trans
      (List.map_id _)
  have hdigits : (Nat.toDigits 10 n).all Char.isDigit = true :=
    List.all_eq_true.mpr fun c hc => isDigit_of_mem_toDigits hc
  have hvalid : ¬(Nat.toDigits 10 n = [] ∨ (Nat.toDigits 10 n).all Char.isDigit = false) := by
    rw [hdigits]
    exact fun hbad => hbad.elim Nat.toDigits_ne_nil nofun
  unfold atoi
  rw [hchars, cutSign_digits fun c hc => isDigit_of_mem_toDigits hc]
  dsimp only
  rw [if_neg hvalid, Nat.ofDigitChars_ten_toDigits]
  rw [if_neg Bool.false_ne_true, if_neg (by omega)]

end ForwardX.GoText

import GoUml.Files.RawText
import Mathlib.Data.List.Basic

/-!
# Texts and their UTF-8 forms

Reading the UTF-8 form of a character gives that character and ends between two characters again,
so a text is read back from its form, and different texts have different forms. Each of the four
lengths of a form is one case; in each of them the bytes behind the first one lie in the range that
the first one leaves open.
-/

namespace GoUml.RawText

variable {b : UInt8} {p : Pending} {raw rest : RawText} {s t : String}

theorem lead?_two {n : Nat} (h : 0xC2 ≤ n) (h' : n < 0xE0) :
    lead? n = some { owed := 1, value := n - 0xC0 } := by
  rw [lead?, if_neg (Nat.not_lt.2 h), if_pos h']

theorem lead?_three {n : Nat} (h : 0xE0 ≤ n) (h' : n < 0xF0) :
    lead? n = some { owed := 2, value := n - 0xE0
                     low := if n = 0xE0 then 0xA0 else 0x80
                     high := if n = 0xED then 0x9F else 0xBF } := by
  rw [lead?, if_neg (by omega), if_neg (by omega), if_pos h']

theorem lead?_four {n : Nat} (h : 0xF0 ≤ n) (h' : n < 0xF5) :
    lead? n = some { owed := 3, value := n - 0xF0
                     low := if n = 0xF0 then 0x90 else 0x80
                     high := if n = 0xF4 then 0x8F else 0xBF } := by
  rw [lead?, if_neg (by omega), if_neg (by omega), if_neg (by omega), if_pos h']

theorem decodeFrom_start (hb : 0x80 ≤ b.toNat) (h : lead? b.toNat = some p) :
    decodeFrom none (b :: rest) = decodeFrom (some p) rest := by
  have hnot : ¬b < 0x80 := by
    rw [UInt8.lt_iff_toNat_lt]
    exact Nat.not_lt.2 hb
  rw [decodeFrom, start, if_neg hnot, h]
  rfl

theorem decodeFrom_carryOn (hb : p.low ≤ b.toNat ∧ b.toNat ≤ p.high) (howed : p.owed ≠ 1) :
    decodeFrom (some p) (b :: rest) =
      decodeFrom (some { owed := p.owed - 1, value := 64 * p.value + (b.toNat - 0x80) }) rest := by
  rw [decodeFrom, carryOn, if_pos hb]
  simp only [if_neg howed, List.nil_append]

theorem decodeFrom_complete (hb : p.low ≤ b.toNat ∧ b.toNat ≤ p.high) (howed : p.owed = 1) :
    decodeFrom (some p) (b :: rest) =
      Char.ofNat (64 * p.value + (b.toNat - 0x80)) :: decodeFrom none rest := by
  rw [decodeFrom, carryOn, if_pos hb]
  simp only [if_pos howed, List.singleton_append]

section

variable {n : Nat}

theorem toNat_ofNat (h : n < 256) : (UInt8.ofNat n).toNat = n := UInt8.toNat_ofNat_of_lt' h

theorem decodeFrom_one (h : n < 0x80) (rest : RawText) :
    decodeFrom none (UInt8.ofNat n :: rest) = Char.ofNat n :: decodeFrom none rest := by
  have hbyte := toNat_ofNat (show n < 256 by omega)
  have hlt : UInt8.ofNat n < 0x80 := by
    rw [UInt8.lt_iff_toNat_lt, hbyte]
    exact h
  rw [decodeFrom, start, if_pos hlt, hbyte]
  rfl

theorem decodeFrom_two (h : 0x80 ≤ n) (h' : n < 0x800) (rest : RawText) :
    decodeFrom none (UInt8.ofNat (n / 64 % 32 + 192) :: UInt8.ofNat (n % 64 + 128) :: rest) =
      Char.ofNat n :: decodeFrom none rest := by
  have hfirst := toNat_ofNat (show n / 64 % 32 + 192 < 256 by omega)
  have hlast := toNat_ofNat (show n % 64 + 128 < 256 by omega)
  have hlead := lead?_two (show 0xC2 ≤ n / 64 % 32 + 192 by omega) (by omega)
  rw [decodeFrom_start (by omega) (by rw [hfirst, hlead]),
    decodeFrom_complete (by dsimp only; omega) rfl, hlast]
  dsimp only
  rw [show 64 * (n / 64 % 32 + 192 - 0xC0) + (n % 64 + 128 - 0x80) = n by omega]

theorem decodeFrom_three (h : 0x800 ≤ n) (h' : n < 0xD800 ∨ 0xDFFF < n ∧ n < 0x10000)
    (rest : RawText) :
    decodeFrom none (UInt8.ofNat (n / 4096 % 16 + 224) :: UInt8.ofNat (n / 64 % 64 + 128) ::
      UInt8.ofNat (n % 64 + 128) :: rest) = Char.ofNat n :: decodeFrom none rest := by
  have hfirst := toNat_ofNat (show n / 4096 % 16 + 224 < 256 by omega)
  have hsecond := toNat_ofNat (show n / 64 % 64 + 128 < 256 by omega)
  have hlast := toNat_ofNat (show n % 64 + 128 < 256 by omega)
  have hlead := lead?_three (show 0xE0 ≤ n / 4096 % 16 + 224 by omega) (by omega)
  rw [decodeFrom_start (by omega) (by rw [hfirst, hlead]),
    decodeFrom_carryOn (by dsimp only; split <;> split <;> omega) (by simp),
    decodeFrom_complete (by dsimp only; omega) rfl, hlast, hsecond]
  dsimp only
  rw [show 64 * (64 * (n / 4096 % 16 + 224 - 0xE0) + (n / 64 % 64 + 128 - 0x80)) +
    (n % 64 + 128 - 0x80) = n by omega]

theorem decodeFrom_four (h : 0x10000 ≤ n) (h' : n < 0x110000) (rest : RawText) :
    decodeFrom none (UInt8.ofNat (n / 262144 % 8 + 240) :: UInt8.ofNat (n / 4096 % 64 + 128) ::
      UInt8.ofNat (n / 64 % 64 + 128) :: UInt8.ofNat (n % 64 + 128) :: rest) =
      Char.ofNat n :: decodeFrom none rest := by
  have hfirst := toNat_ofNat (show n / 262144 % 8 + 240 < 256 by omega)
  have hsecond := toNat_ofNat (show n / 4096 % 64 + 128 < 256 by omega)
  have hthird := toNat_ofNat (show n / 64 % 64 + 128 < 256 by omega)
  have hlast := toNat_ofNat (show n % 64 + 128 < 256 by omega)
  have hlead := lead?_four (show 0xF0 ≤ n / 262144 % 8 + 240 by omega) (by omega)
  rw [decodeFrom_start (by omega) (by rw [hfirst, hlead]),
    decodeFrom_carryOn (by dsimp only; split <;> split <;> omega) (by simp),
    decodeFrom_carryOn (by dsimp only; omega) (by simp),
    decodeFrom_complete (by dsimp only; omega) rfl, hlast, hthird, hsecond]
  dsimp only
  rw [show 64 * (64 * (64 * (n / 262144 % 8 + 240 - 0xF0) + (n / 4096 % 64 + 128 - 0x80)) +
    (n / 64 % 64 + 128 - 0x80)) + (n % 64 + 128 - 0x80) = n by omega]

end

theorem decodeFrom_utf8EncodeChar (c : Char) (rest : RawText) :
    decodeFrom none (String.utf8EncodeChar c ++ rest) = c :: decodeFrom none rest := by
  have hvalid : c.toNat < 0xD800 ∨ 0xDFFF < c.toNat ∧ c.toNat < 0x110000 := c.valid
  conv_rhs => rw [← Char.ofNat_toNat c]
  rw [String.utf8EncodeChar]
  change decodeFrom none ((if c.toNat ≤ 127 then _ else if c.toNat ≤ 2047 then _ else
    if c.toNat ≤ 65535 then _ else _) ++ rest) = _
  split
  · exact decodeFrom_one (n := c.toNat) (by omega) rest
  · split
    · exact decodeFrom_two (n := c.toNat) (by omega) (by omega) rest
    · split
      · exact decodeFrom_three (n := c.toNat) (by omega) (by omega) rest
      · exact decodeFrom_four (n := c.toNat) (by omega) (by omega) rest

theorem decodeFrom_flatMap (cs : List Char) :
    decodeFrom none (cs.flatMap String.utf8EncodeChar) = cs := by
  induction cs with
  | nil => rfl
  | cons c cs ih => rw [List.flatMap_cons, decodeFrom_utf8EncodeChar, ih]

/-! ### Texts -/

@[simp] theorem display_ofString (s : String) : (ofString s).display = s := by
  rw [display, ofString, decodeFrom_flatMap, String.ofList_toList]

theorem ofString_inj (h : ofString s = ofString t) : s = t := by
  rw [← display_ofString s, h, display_ofString]

/-- The bytes of a text are those of its UTF-8 form. -/
theorem text?_eq_some_iff : raw.text? = some s ↔ raw = ofString s := by
  rw [text?, Option.ite_none_right_eq_some]
  constructor
  · rintro ⟨h, hs⟩
    rw [← h, Option.some.inj hs]
  · rintro rfl
    rw [display_ofString]
    exact ⟨rfl, rfl⟩

/-- The bytes are the UTF-8 form of a text. -/
def IsText (raw : RawText) : Prop := ∃ s, raw = ofString s

theorem isText_ofString (s : String) : (ofString s).IsText := ⟨s, rfl⟩

theorem IsText.display_inj {other : RawText} (h : raw.IsText) (h' : other.IsText)
    (heq : raw.display = other.display) : raw = other := by
  obtain ⟨s, rfl⟩ := h
  obtain ⟨t, rfl⟩ := h'
  rw [display_ofString, display_ofString] at heq
  rw [heq]

theorem decodeFrom_some_ne_nil (p : Pending) (raw : RawText) : decodeFrom (some p) raw ≠ [] := by
  induction raw generalizing p with
  | nil => simp [decodeFrom]
  | cons b rest ih =>
    rw [decodeFrom, carryOn]
    split
    · dsimp only
      split
      · simp
      · simpa using ih _
    · simp

theorem display_eq_empty_iff : raw.display = "" ↔ raw = [] := by
  rw [display, String.ofList_eq_empty_iff]
  cases raw with
  | nil => simp [decodeFrom]
  | cons b rest =>
    simp only [reduceCtorEq, iff_false]
    rw [decodeFrom, start]
    split
    · simp
    · split
      · simpa using decodeFrom_some_ne_nil _ _
      · simp

end GoUml.RawText

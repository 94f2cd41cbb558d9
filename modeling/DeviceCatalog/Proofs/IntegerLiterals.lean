import DeviceCatalog.Proofs.ReadValues
import Mathlib.Algebra.Order.Ring.Int

/-!
# Integer literals

Which part of a text the reader takes for an integer: the decimal text of an integer that fits 64 bits, signed or unsigned, with no point, no
power of ten and no further digit behind it (`readValue_integer_iff`). The digits of such a literal are those that the number is printed with,
so there is one for every integer of the range; `-0` is none.
-/

namespace DeviceCatalog

namespace Text

/-! ## Decimal text -/

/-- A digit character is written for its value. -/
theorem digitChar_of_isDigit {c : Char} (h : c.isDigit = true) : c.toNat - '0'.toNat < 10 ∧ (c.toNat - '0'.toNat).digitChar = c := by
  have hrange : 48 ≤ c.toNat ∧ c.toNat ≤ 57 := by
    simp only [Char.isDigit, Bool.and_eq_true, decide_eq_true_eq] at h
    exact h
  have hzero : '0'.toNat = 48 := rfl
  refine ⟨by omega, Char.toNat_inj.1 ?_⟩
  rw [Nat.toNat_digitChar_of_lt_ten (by omega)]
  omega

/-- Digits that follow the text of a positive number make the text of the longer number. -/
theorem toDigits_append {n : Nat} (hn : 0 < n) {cs : List Char} (hcs : ∀ c ∈ cs, c.isDigit = true) :
    Nat.toDigits 10 n ++ cs = Nat.toDigits 10 (Nat.ofDigitChars 10 cs n) := by
  induction cs generalizing n with
  | nil => rw [List.append_nil, Nat.ofDigitChars_nil]
  | cons c cs ih =>
    obtain ⟨hc, hcs⟩ := List.forall_mem_cons.1 hcs
    obtain ⟨hlt, hchar⟩ := digitChar_of_isDigit hc
    have hlast : Nat.toDigits 10 n ++ [c] = Nat.toDigits 10 (10 * n + (c.toNat - '0'.toNat)) := by
      rw [← Nat.toDigits_append_toDigits (by decide) hn hlt, Nat.toDigits_of_lt_base hlt, hchar]
    rw [Nat.ofDigitChars_cons, ← ih (by omega) hcs, ← hlast, List.append_assoc, List.singleton_append]

/-- Digits, at least one, and no zero in front of others. -/
structure IsDecimal (cs : List Char) : Prop where
  nonempty : cs ≠ []
  digits : ∀ c ∈ cs, c.isDigit = true
  leading : ∀ rest, cs = '0' :: rest → rest = []

/-- Such digits are the text of their number. -/
theorem IsDecimal.toDigits_ofDigitChars {cs : List Char} (h : IsDecimal cs) : Nat.toDigits 10 (Nat.ofDigitChars 10 cs 0) = cs := by
  cases cs with
  | nil => exact absurd rfl h.nonempty
  | cons c cs =>
    obtain ⟨hc, hcs⟩ := List.forall_mem_cons.1 h.digits
    obtain ⟨hlt, hchar⟩ := digitChar_of_isDigit hc
    have hfirst : Nat.toDigits 10 (c.toNat - '0'.toNat) = [c] := by rw [Nat.toDigits_of_lt_base hlt, hchar]
    rw [Nat.ofDigitChars_cons, Nat.mul_zero, Nat.zero_add]
    rcases Nat.eq_zero_or_pos (c.toNat - '0'.toNat) with hzero | hpos
    · have hc0 : c = '0' := by rw [← hchar, hzero]; rfl
      rw [h.leading cs (by rw [hc0]), Nat.ofDigitChars_nil, hfirst]
    · rw [← toDigits_append hpos hcs, hfirst, List.singleton_append]

/-- The text of a number has no leading zero. -/
theorem eq_nil_of_toDigits_eq_cons {n : Nat} {cs : List Char} (h : Nat.toDigits 10 n = '0' :: cs) : cs = [] := by
  induction n using Nat.strongRecOn generalizing cs with
  | ind n ih =>
    rcases Nat.lt_or_ge n 10 with hn | hn
    · rw [Nat.toDigits_of_lt_base hn] at h
      exact (List.cons.inj h).2.symm
    · rw [Nat.toDigits_of_base_le (by decide) hn] at h
      cases hfront : Nat.toDigits 10 (n / 10) with
      | nil => exact absurd hfront Nat.toDigits_ne_nil
      | cons d ds =>
        rw [hfront, List.cons_append] at h
        obtain ⟨rfl, -⟩ := List.cons.inj h
        -- the number in front would be zero, but it is not
        have hds := ih (n / 10) (by omega) hfront
        have hvalue : Nat.ofDigitChars 10 (Nat.toDigits 10 (n / 10)) 0 = n / 10 := Nat.ofDigitChars_ten_toDigits
        rw [hfront, hds] at hvalue
        have hzero : Nat.ofDigitChars 10 ['0'] 0 = 0 := rfl
        omega

/-- So the texts of the numbers are the digits of this kind. -/
theorem isDecimal_toDigits (n : Nat) : IsDecimal (Nat.toDigits 10 n) :=
  ⟨Nat.toDigits_ne_nil, fun _ => Nat.isDigit_of_mem_toDigits (by decide) (by decide), fun _ => eq_nil_of_toDigits_eq_cons⟩

end Text

namespace Json

/-! ## The significand -/

/-- Digits that fit a significand are all in it, and it is full when they do not. -/
theorem foldl_integerDigit (ds : List Nat) {v : Nat} (hv : v < UInt64.size) (p : Int) :
    (ds.foldl (fun n d => 10 * n + d) v < UInt64.size →
      ds.foldl Significand.integerDigit ⟨v, p, false⟩ = ⟨ds.foldl (fun n d => 10 * n + d) v, p, false⟩) ∧
    (UInt64.size ≤ ds.foldl (fun n d => 10 * n + d) v → (ds.foldl Significand.integerDigit ⟨v, p, false⟩).full = true) := by
  have hgrows : ∀ (ds : List Nat) (v : Nat), v ≤ ds.foldl (fun n d => 10 * n + d) v := by
    intro ds
    induction ds with
    | nil => exact Nat.le_refl
    | cons d ds ih => exact fun v => Nat.le_trans (by omega) (ih (10 * v + d))
  have hfull : ∀ (ds : List Nat) (s : Significand), s.full = true → (ds.foldl Significand.integerDigit s).full = true := by
    intro ds
    induction ds with
    | nil => exact fun _ hs => hs
    | cons d ds ih => exact fun s hs => ih _ (by rw [Significand.integerDigit, if_pos hs]; exact hs)
  induction ds generalizing v with
  | nil => exact ⟨fun _ => rfl, fun h => absurd hv (Nat.not_lt.2 h)⟩
  | cons d ds ih =>
    rw [List.foldl_cons, List.foldl_cons]
    by_cases hd : 10 * v + d < UInt64.size
    · have hstep : Significand.integerDigit ⟨v, p, false⟩ d = ⟨10 * v + d, p, false⟩ := by
        rw [Significand.integerDigit, if_neg (by simp), if_pos hd]
      rw [hstep]
      exact ih hd
    · have hstep : (Significand.integerDigit ⟨v, p, false⟩ d).full = true := by
        rw [Significand.integerDigit, if_neg (by simp), if_neg hd]
      refine ⟨fun h => absurd (Nat.lt_of_le_of_lt (hgrows ds _) h) hd, fun _ => hfull ds _ hstep⟩

/-! ## Numerals -/

/-- Nothing comes next that would go on with an integer: no digit, no point and no power of ten. -/
def EndsInteger (rest : List Char) : Prop :=
  ∀ c ∈ rest.head?, c.isDigit = false ∧ c ≠ '.' ∧ c ≠ 'e' ∧ c ≠ 'E'

/-- The number is an integer of the range. -/
def Number.Fits : Number → Prop
  | .integer n => -2 ^ 63 ≤ n ∧ n < 2 ^ 64
  | .float _ => True

/-- Behind an integer there is no digit, no point and no exponent. -/
theorem endsInteger_of_ne {rest : List Char} (hdigit : ∀ c ∈ rest.head?, c.isDigit = false) (hpoint : ∀ tail, rest ≠ '.' :: tail)
    (he : ∀ tail, rest ≠ 'e' :: tail) (hE : ∀ tail, rest ≠ 'E' :: tail) : EndsInteger rest := by
  intro c hc
  obtain ⟨tail, rfl⟩ := List.head?_eq_some_iff.1 hc
  refine ⟨hdigit c hc, ?_, ?_, ?_⟩
  · rintro rfl
    exact hpoint tail rfl
  · rintro rfl
    exact he tail rfl
  · rintro rfl
    exact hE tail rfl

/-- The value of a digit. -/
def digitValue (c : Char) : Nat := c.toNat - '0'.toNat

/-- All digits are taken up to the first character that is none. -/
theorem takeDigits_append {ds rest : List Char} (hds : ∀ c ∈ ds, c.isDigit = true) (hrest : ∀ c ∈ rest.head?, c.isDigit = false) :
    takeDigits (ds ++ rest) = (ds.map digitValue, rest) := by
  have htake : rest.takeWhile Char.isDigit = [] := by
    cases rest with
    | nil => rfl
    | cons c rest => exact List.takeWhile_cons_of_neg (by rw [hrest c rfl]; decide)
  have hdrop : rest.dropWhile Char.isDigit = rest := by
    cases rest with
    | nil => rfl
    | cons c rest => exact List.dropWhile_cons_of_neg (by rw [hrest c rfl]; decide)
  rw [takeDigits, List.takeWhile_append_of_pos hds, List.dropWhile_append_of_pos hds, htake, hdrop, List.append_nil]
  rfl

/-- What is taken are the digits in front, and what is left does not begin with one. -/
theorem takeDigits_eq_iff {cs rest : List Char} {values : List Nat} :
    takeDigits cs = (values, rest) ↔
      ∃ ds, cs = ds ++ rest ∧ (∀ c ∈ ds, c.isDigit = true) ∧ (∀ c ∈ rest.head?, c.isDigit = false) ∧ values = ds.map digitValue := by
  constructor
  · intro h
    obtain ⟨hvalues, hrest⟩ := Prod.mk.inj h
    refine ⟨cs.takeWhile Char.isDigit, ?_, List.all_eq_true.1 List.all_takeWhile, fun c hc => ?_, hvalues.symm⟩
    · rw [← hrest, List.takeWhile_append_dropWhile]
    · rw [← hrest] at hc
      have hfirst := List.head?_dropWhile_not Char.isDigit cs
      rw [Option.mem_def.1 hc] at hfirst
      exact hfirst
  · rintro ⟨ds, rfl, hds, hrest, rfl⟩
    exact takeDigits_append hds hrest

/-- The digits are all in the significand if their number fits it, and else it is full. -/
theorem significand_of_digits (ds : List Char) :
    (Nat.ofDigitChars 10 ds 0 < 2 ^ 64 →
      (ds.map digitValue).foldl Significand.integerDigit ⟨0, 0, false⟩ = ⟨Nat.ofDigitChars 10 ds 0, 0, false⟩) ∧
    (2 ^ 64 ≤ Nat.ofDigitChars 10 ds 0 → ((ds.map digitValue).foldl Significand.integerDigit ⟨0, 0, false⟩).full = true) := by
  have hvalue : (ds.map digitValue).foldl (fun n d => 10 * n + d) 0 = Nat.ofDigitChars 10 ds 0 := by
    rw [List.foldl_map]
    rfl
  rw [← hvalue]
  exact foldl_integerDigit (ds.map digitValue) (v := 0) (by decide) 0

/-- A numeral without point stays an integer exactly when it fits 64 bits with its sign. -/
theorem wholeNumeral_eq_integer_iff {minus : Bool} {k : Nat} {n : Int} :
    wholeNumeral minus k = .integer n ↔ if minus then 0 < k ∧ k ≤ 2 ^ 63 ∧ n = -k else n = k := by
  have hbound : Nat.pow 2 63 = 2 ^ 63 := rfl
  unfold wholeNumeral
  rw [hbound]
  cases minus with
  | false => simp [eq_comm]
  | true =>
    rw [if_pos rfl, if_pos rfl, ← and_assoc]
    split
    · rename_i hk
      rw [and_iff_right hk, Number.integer.injEq, eq_comm]
    · rename_i hk
      exact iff_of_false nofun fun h => hk h.1

/-- A numeral with a scale is a floating number. -/
theorem exists_float_of_scaledNumeral {minus : Bool} {s : Significand} {cs rest : List Char} {x : Number}
    (h : scaledNumeral minus s cs = .ok (x, rest)) : ∃ y, x = .float y := by
  unfold scaledNumeral at h
  split at h
  · cases h
    exact ⟨_, rfl⟩
  · cases h

/-- A numeral with an exponent is a floating number. -/
theorem exists_float_of_readPower {minus : Bool} {s : Significand} {cs rest : List Char} {x : Number}
    (h : readPower minus s cs = .ok (x, rest)) : ∃ y, x = .float y := by
  unfold readPower at h
  split at h
  split at h
  · cases h
  · cases h
  · dsimp only at h
    split at h
    · exact exists_float_of_scaledNumeral h
    · split at h
      · cases h
      · cases h
        exact ⟨_, rfl⟩

/-- What has a point or a power of ten is no integer, whatever its value is. -/
theorem exists_float_of_readScaled {minus : Bool} {s : Significand} {cs rest : List Char} {x : Number}
    (h : readScaled minus s cs = .ok (x, rest)) : ∃ y, x = .float y := by
  unfold readScaled at h
  split at h
  · exact exists_float_of_readPower h
  · exact exists_float_of_readPower h
  · exact exists_float_of_scaledNumeral h

/-- Digits of a number that fits are read as the whole numeral that they are. -/
theorem readNumeral_digits {minus : Bool} {ds rest : List Char} (h : Text.IsDecimal ds) (hrest : EndsInteger rest)
    (hfits : Nat.ofDigitChars 10 ds 0 < 2 ^ 64) :
    readNumeral minus (ds ++ rest) = .ok (wholeNumeral minus (Nat.ofDigitChars 10 ds 0), rest) := by
  have htake := takeDigits_append h.digits fun c hc => (hrest c hc).1
  have hvalue := (significand_of_digits ds).1 hfits
  have hnil : ds.map digitValue ≠ [] := fun hmap => h.nonempty (List.map_eq_nil_iff.1 hmap)
  have hleading : ∀ v vs, ds.map digitValue ≠ 0 :: v :: vs := by
    intro v vs hmap
    obtain ⟨c, cs, rfl, hc, hcs⟩ := List.map_eq_cons_iff.1 hmap
    have hc0 : c = '0' := by
      rw [← (Text.digitChar_of_isDigit (h.digits c List.mem_cons_self)).2]
      exact congrArg Nat.digitChar hc
    rw [h.leading cs (by rw [hc0])] at hcs
    cases hcs
  unfold readNumeral
  rw [htake]
  -- Digits that do not begin with a needless zero are neither missing nor malformed.
  split
  · rename_i heq
    exact absurd (Prod.mk.inj heq).1 hnil
  · rename_i heq
    exact absurd (Prod.mk.inj heq).1 hnil
  · rename_i heq
    exact absurd (Prod.mk.inj heq).1 (hleading _ _)
  · rename_i heq
    obtain ⟨rfl, rfl⟩ := Prod.mk.inj heq
    dsimp only
    rw [hvalue]
    split
    · exact absurd rfl (hrest '.' rfl).2.1
    · exact absurd rfl (hrest 'e' rfl).2.2.1
    · exact absurd rfl (hrest 'E' rfl).2.2.2
    · rfl

/-- Nothing else is read as an integer: what is left of the other numerals is a float, and the rest is no numeral. -/
theorem exists_digits_of_readNumeral {minus : Bool} {cs rest : List Char} {n : Int} (h : readNumeral minus cs = .ok (.integer n, rest)) :
    ∃ ds, cs = ds ++ rest ∧ Text.IsDecimal ds ∧ EndsInteger rest ∧ Nat.ofDigitChars 10 ds 0 < 2 ^ 64 ∧
      wholeNumeral minus (Nat.ofDigitChars 10 ds 0) = .integer n := by
  unfold readNumeral at h
  split at h
  · cases h
  · cases h
  · cases h
  · rename_i values r hended hmalformed hleading hdigits
    dsimp only at h
    split at h
    · split at h
      · cases h
      · cases h
      · obtain ⟨y, hy⟩ := exists_float_of_readScaled h
        cases hy
    · obtain ⟨y, hy⟩ := exists_float_of_readScaled h
      cases hy
    · obtain ⟨y, hy⟩ := exists_float_of_readScaled h
      cases hy
    · split at h
      · obtain ⟨y, hy⟩ := exists_float_of_scaledNumeral h
        cases hy
      · rename_i hpoint he hE hfull
        obtain ⟨hn, rfl⟩ := Prod.mk.inj (Except.ok.inj h)
        obtain ⟨ds, rfl, hds, hrest, rfl⟩ := takeDigits_eq_iff.1 hdigits
        have hfits : Nat.ofDigitChars 10 ds 0 < 2 ^ 64 := Nat.lt_of_not_le fun hle => hfull ((significand_of_digits ds).2 hle)
        rw [(significand_of_digits ds).1 hfits] at hn
        refine ⟨ds, rfl, ⟨?_, hds, fun t ht => ?_⟩, endsInteger_of_ne hrest hpoint he hE, hfits, hn⟩
        · rintro rfl
          cases r with
          | nil => exact hended rfl rfl
          | cons c r => exact hmalformed c r rfl rfl
        · subst ht
          cases t with
          | nil => rfl
          | cons c t => exact (hleading _ _ rfl).elim

/-- The numeral of an integer is its digits, with nothing behind them that would go on with it. -/
theorem readNumeral_integer_iff {minus : Bool} {cs rest : List Char} {n : Int} :
    readNumeral minus cs = .ok (.integer n, rest) ↔
      ∃ k, cs = Nat.toDigits 10 k ++ rest ∧ EndsInteger rest ∧ k < 2 ^ 64 ∧ wholeNumeral minus k = .integer n := by
  constructor
  · intro h
    obtain ⟨ds, rfl, hds, hrest, hfits, hn⟩ := exists_digits_of_readNumeral h
    exact ⟨Nat.ofDigitChars 10 ds 0, by rw [hds.toDigits_ofDigitChars], hrest, hfits, hn⟩
  · rintro ⟨k, rfl, hrest, hk, hn⟩
    have hvalue : Nat.ofDigitChars 10 (Nat.toDigits 10 k) 0 = k := Nat.ofDigitChars_ten_toDigits
    rw [← hn, readNumeral_digits (Text.isDecimal_toDigits k) hrest (by rwa [hvalue]), hvalue]

/-- A numeral that is read as an integer fits 64 bits. -/
theorem fits_of_readNumeral {minus : Bool} {cs rest : List Char} {x : Number} (h : readNumeral minus cs = .ok (x, rest)) : x.Fits := by
  cases x with
  | float y => trivial
  | integer n =>
    obtain ⟨k, -, -, hk, hn⟩ := readNumeral_integer_iff.1 h
    rw [wholeNumeral_eq_integer_iff] at hn
    show -2 ^ 63 ≤ n ∧ n < 2 ^ 64
    cases minus with
    | false =>
      rw [if_neg (by decide)] at hn
      omega
    | true =>
      rw [if_pos rfl] at hn
      omega

/-! ## Values -/

/-- A blank of JSON. -/
def isBlank (c : Char) : Bool := c = ' ' || c = '\t' || c = '\n' || c = '\r'

theorem ne_of_isDigit {c d : Char} (hc : c.isDigit = true) (hd : d.isDigit = false) : c ≠ d := by
  rintro rfl
  rw [hd] at hc
  cases hc

theorem isBlank_of_isDigit {c : Char} (hc : c.isDigit = true) : isBlank c = false := by
  have hne : ∀ d : Char, d.isDigit = false → c ≠ d := fun _ => ne_of_isDigit hc
  simp [isBlank, hne ' ' rfl, hne '\t' rfl, hne '\n' rfl, hne '\r' rfl]

/-- What is left of a text without the blanks in front of it. -/
theorem skipBlanks_eq_cons_iff {cs rest : List Char} {c : Char} :
    skipBlanks cs = c :: rest ↔ isBlank c = false ∧ ∃ blanks, (∀ b ∈ blanks, isBlank b = true) ∧ cs = blanks ++ c :: rest := by
  have hskip : skipBlanks cs = cs.dropWhile isBlank := rfl
  rw [hskip]
  constructor
  · intro h
    have hfirst := List.head?_dropWhile_not isBlank cs
    rw [h] at hfirst
    refine ⟨hfirst, cs.takeWhile isBlank, List.all_eq_true.1 List.all_takeWhile, ?_⟩
    rw [← h, List.takeWhile_append_dropWhile]
  · rintro ⟨hc, blanks, hblanks, rfl⟩
    rw [List.dropWhile_append_of_pos hblanks]
    exact List.dropWhile_cons_of_neg (by rw [hc]; decide)

/-- A number is read from a numeral, behind a minus sign or not. -/
theorem readValue_number_iff {depth : Nat} {cs rest : List Char} {x : Number} :
    readValue depth cs = .ok (.number x, rest) ↔
      (∃ r, skipBlanks cs = '-' :: r ∧ readNumeral true r = .ok (x, rest)) ∨
        ∃ c r, skipBlanks cs = c :: r ∧ c.isDigit = true ∧ readNumeral false (c :: r) = .ok (x, rest) := by
  constructor
  · fun_cases readValue depth cs with
    | case2 | case4 | case6 =>
      intro h
      obtain ⟨_, -, h⟩ := Outcome.map_eq_ok_iff.1 h
      cases h
    | case7 | case8 | case9 =>
      intro h
      cases eq_of_readWord h
    | case10 _ r hskip =>
      intro h
      obtain ⟨_, hread, h⟩ := Outcome.map_eq_ok_iff.1 h
      cases h
      exact Or.inl ⟨r, hskip, hread⟩
    | case11 _ c r hskip _ _ _ _ _ _ _ hdigit =>
      intro h
      obtain ⟨_, hread, h⟩ := Outcome.map_eq_ok_iff.1 h
      cases h
      exact Or.inr ⟨c, r, hskip, hdigit, hread⟩
    | _ =>
      intro h
      cases h
  · rintro (⟨r, hskip, hread⟩ | ⟨c, r, hskip, hc, hread⟩)
    · unfold readValue
      rw [hskip]
      exact congrArg (Except.map _) hread
    · -- A digit is none of the characters that begin the other values.
      have hne : ∀ d : Char, d.isDigit = false → c ≠ d := fun _ => ne_of_isDigit hc
      unfold readValue
      rw [hskip]
      dsimp only
      rw [if_neg (hne '"' rfl), if_neg (hne '[' rfl), if_neg (hne '\x7b' rfl), if_neg (hne 'n' rfl), if_neg (hne 't' rfl), if_neg (hne 'f' rfl),
        if_neg (hne '-' rfl), if_pos hc, hread]
      rfl

/-- The decimal text of an integer is that of its absolute value, behind a minus sign if it is negative. -/
theorem toList_signedDecimal (n : Int) :
    (Text.signedDecimal n).toList = if n < 0 then '-' :: Nat.toDigits 10 n.natAbs else Nat.toDigits 10 n.natAbs := by
  cases n with
  | ofNat n => exact String.toList_ofList
  | negSucc n =>
    rw [if_pos (Int.negSucc_lt_zero n), Text.signedDecimal, String.toList_append]
    exact congrArg ('-' :: ·) String.toList_ofList

/-- Behind blanks, the decimal text of an integer is read as that integer if it fits 64 bits and nothing comes next that would go on with it.
Nothing else is read as that integer. -/
theorem readValue_integer_iff {depth : Nat} {cs rest : List Char} {n : Int} :
    readValue depth cs = .ok (.number (.integer n), rest) ↔
      (-2 ^ 63 ≤ n ∧ n < 2 ^ 64) ∧ EndsInteger rest ∧
        ∃ blanks, (∀ b ∈ blanks, isBlank b = true) ∧ cs = blanks ++ (Text.signedDecimal n).toList ++ rest := by
  rw [readValue_number_iff, toList_signedDecimal]
  constructor
  · rintro (⟨r, hskip, hread⟩ | ⟨c, r, hskip, -, hread⟩)
    · obtain ⟨k, rfl, hrest, hk, hn⟩ := readNumeral_integer_iff.1 hread
      obtain ⟨hpos, hle, rfl⟩ := wholeNumeral_eq_integer_iff.1 hn
      obtain ⟨-, blanks, hblanks, rfl⟩ := skipBlanks_eq_cons_iff.1 hskip
      refine ⟨by omega, hrest, blanks, hblanks, ?_⟩
      rw [if_pos (by omega), Int.natAbs_neg, Int.natAbs_natCast, List.append_assoc]
      rfl
    · obtain ⟨k, hcs, hrest, hk, hn⟩ := readNumeral_integer_iff.1 hread
      obtain rfl : n = k := wholeNumeral_eq_integer_iff.1 hn
      obtain ⟨-, blanks, hblanks, rfl⟩ := skipBlanks_eq_cons_iff.1 hskip
      refine ⟨by omega, hrest, blanks, hblanks, ?_⟩
      rw [if_neg (by omega), Int.natAbs_natCast, List.append_assoc, ← hcs]
  · rintro ⟨⟨hlow, hhigh⟩, hrest, blanks, hblanks, rfl⟩
    split
    · rename_i hneg
      refine Or.inl ⟨_, skipBlanks_eq_cons_iff.2 ⟨rfl, blanks, hblanks, List.append_assoc _ _ _⟩, ?_⟩
      refine readNumeral_integer_iff.2 ⟨n.natAbs, rfl, hrest, by omega, wholeNumeral_eq_integer_iff.2 ?_⟩
      exact ⟨by omega, by omega, by omega⟩
    · rename_i hnonneg
      obtain ⟨c, ds, hds⟩ := List.exists_cons_of_ne_nil (Nat.toDigits_ne_nil (n := n.natAbs) (b := 10))
      have hdigit : c.isDigit = true := by
        refine (Text.isDecimal_toDigits n.natAbs).digits c ?_
        rw [hds]
        exact List.mem_cons_self
      refine Or.inr ⟨c, ds ++ rest, skipBlanks_eq_cons_iff.2 ⟨isBlank_of_isDigit hdigit, blanks, hblanks, ?_⟩, hdigit, ?_⟩
      · rw [hds, List.append_assoc, List.cons_append]
      · refine readNumeral_integer_iff.2 ⟨n.natAbs, by rw [hds, List.cons_append], hrest, by omega, wholeNumeral_eq_integer_iff.2 ?_⟩
        show n = n.natAbs
        omega

/-! ## Every integer -/

/-- Every integer in the value, however deep, fits 64 bits. -/
inductive IntegersFit : Json → Prop where
  | null : IntegersFit .null
  | bool (b : Bool) : IntegersFit (.bool b)
  | number {x : Number} (h : x.Fits) : IntegersFit (.number x)
  | string (s : String) : IntegersFit (.string s)
  | array {items : List Json} (h : ∀ v ∈ items, IntegersFit v) : IntegersFit (.array items)
  | object {ms : List (String × Json)} (h : ∀ m ∈ ms, IntegersFit m.2) : IntegersFit (.object ms)

/-- That all integers fit passes from the parts of a value to the whole. -/
theorem inherited_integersFit : Inherited IntegersFit :=
  ⟨.null, .bool, .string, fun h => .number (fits_of_readNumeral h), .array, fun _ => .object⟩

/-- All integers of a value that is read fit 64 bits. -/
theorem integersFit_of_parse {text : String} {root : Json} (h : parse text = .ok root) : root.IntegersFit :=
  inherited_integersFit.of_parse h

namespace IntegersFit

theorem member? {v w : Json} {key : String} (h : v.IntegersFit) (hw : v.member? key = some w) : w.IntegersFit := by
  obtain ⟨ms, rfl, hmem⟩ := mem_of_member? hw
  cases h with
  | object h => exact h (key, w) hmem

theorem item {items : List Json} {i : Nat} {w : Json} (h : IntegersFit (.array items)) (hw : items[i]? = some w) : w.IntegersFit := by
  cases h with
  | array h => exact h w (List.mem_of_getElem? hw)

end IntegersFit

end Json

end DeviceCatalog

import DeviceCatalog.CSource.Name

/-!
# Identifiers and their byte order

What stands for a name in emitted source is empty or an identifier. It is made of ASCII characters, and among texts of these the order of
the characters is the order of the bytes.
-/

namespace DeviceCatalog

/-! ## Byte order -/

namespace Text

/-- The bytes of a text in UTF-8. -/
def bytes (s : String) : List UInt8 := s.toUTF8.data.toList

/-- The bytes of the first text come before those of the second one: at the first place where they differ the byte is less, or there is
none. -/
def BytesBelow (s t : String) : Prop := List.Lex (· < ·) (bytes s) (bytes t)

theorem bytes_eq (s : String) : bytes s = s.toList.flatMap String.utf8EncodeChar := by
  have hbytes : s.toUTF8 = s.toList.utf8Encode := by
    rw [← String.toByteArray_ofList, String.ofList_toList]
    rfl
  rw [bytes, hbytes, List.utf8Encode, List.data_toByteArray]

/-- Among texts of ASCII characters the order of the characters is the order of the bytes. -/
theorem bytesBelow_of_lt {s t : String} (h : s < t) (hs : ∀ c ∈ s.toList, c.val ≤ 127) (ht : ∀ c ∈ t.toList, c.val ≤ 127) :
    BytesBelow s t := by
  have hlex : List.Lex (· < ·) s.toList t.toList := h
  unfold BytesBelow
  rw [bytes_eq, bytes_eq]
  generalize s.toList = cs at hlex hs
  generalize t.toList = ds at hlex ht
  have hbyte : ∀ {c : Char}, c.val ≤ 127 → String.utf8EncodeChar c = [c.val.toUInt8] := fun hc =>
    String.utf8EncodeChar_eq_singleton (Char.utf8Size_eq_one_iff.2 hc)
  induction hlex with
  | @nil d ds =>
    rw [List.flatMap_cons, hbyte (ht d List.mem_cons_self)]
    exact .nil
  | @cons c cs ds _ ih =>
    rw [List.flatMap_cons, List.flatMap_cons, hbyte (hs c List.mem_cons_self)]
    exact .cons (ih (fun d hd => hs d (List.mem_cons_of_mem c hd)) fun d hd => ht d (List.mem_cons_of_mem c hd))
  | @rel c cs d ds hlt =>
    have hc := hs c List.mem_cons_self
    have hd := ht d List.mem_cons_self
    rw [List.flatMap_cons, List.flatMap_cons, hbyte hc, hbyte hd]
    have hlt : c.val.toNat < d.val.toNat := UInt32.lt_iff_toNat_lt.1 hlt
    have hc : c.val.toNat ≤ 127 := UInt32.le_iff_toNat_le.1 hc
    have hd : d.val.toNat ≤ 127 := UInt32.le_iff_toNat_le.1 hd
    refine .rel (UInt8.lt_iff_toNat_lt.2 ?_)
    rw [UInt32.toNat_toUInt8, UInt32.toNat_toUInt8, Nat.mod_eq_of_lt (by omega), Nat.mod_eq_of_lt (by omega)]
    exact hlt

end Text

/-! ## Identifiers -/

namespace CSource

/-- A letter or an underscore, with letters, digits and underscores behind it. -/
def IsIdentifier (s : String) : Prop :=
  ∃ c cs, s.toList = c :: cs ∧ (c.isAlpha = true ∨ c = '_') ∧ ∀ d ∈ cs, d.isAlphanum = true ∨ d = '_'

/-- Name characters are letters, digits and underscores. -/
theorem isAlphanum_or_of_isNameChar {c : Char} (h : isNameChar c = true) : c.isAlphanum = true ∨ c = '_' := by
  simpa [isNameChar] using h

/-- Name characters are ASCII characters. -/
theorem val_le_of_isNameChar {c : Char} (h : isNameChar c = true) : c.val ≤ 127 := by
  rcases isAlphanum_or_of_isNameChar h with h | rfl
  · have hranges : (decide ('A'.val ≤ c.val ∧ c.val ≤ 'Z'.val) || decide ('a'.val ≤ c.val) && decide (c.val ≤ 'z'.val) ||
        decide ('0'.val ≤ c.val) && decide (c.val ≤ '9'.val)) = true := h
    simp only [Bool.or_eq_true, Bool.and_eq_true, decide_eq_true_eq] at hranges
    obtain (⟨-, hupper⟩ | ⟨-, hlower⟩) | ⟨-, hdigit⟩ := hranges
    · exact UInt32.le_trans hupper (by decide)
    · exact UInt32.le_trans hlower (by decide)
    · exact UInt32.le_trans hdigit (by decide)
  · decide

theorem isNameChar_of_mem_nameChars {c : Char} {cs : List Char} (h : c ∈ nameChars cs) : isNameChar c = true := by
  have hkept : ∀ d ∈ cs.map fun c => if isNameChar c then c else '_', isNameChar d = true := by
    intro d hd
    obtain ⟨e, -, rfl⟩ := List.mem_map.1 hd
    split
    · assumption
    · decide
  unfold nameChars at h
  split at h
  · split at h
    · rcases List.mem_cons.1 h with rfl | h
      · decide
      · exact hkept c h
    · exact hkept c h
  · exact hkept c h

/-- An identifier is made of name characters. -/
theorem isNameChar_of_mem_name {c : Char} {s : String} (h : c ∈ (name s).toList) : isNameChar c = true := by
  rw [name, String.toList_ofList] at h
  exact isNameChar_of_mem_nameChars h

/-- What stands for a name is empty only when the name is. -/
theorem name_eq_empty_iff {s : String} : name s = "" ↔ s = "" := by
  rw [← String.toList_eq_nil_iff, ← String.toList_eq_nil_iff, name, String.toList_ofList]
  cases s.toList with
  | nil => exact iff_of_true rfl rfl
  | cons c cs =>
    refine iff_of_false ?_ (List.cons_ne_nil c cs)
    simp only [nameChars, List.map_cons]
    split
    · exact List.cons_ne_nil _ _
    · exact List.cons_ne_nil _ _

/-- What stands for a name is empty or an identifier. -/
theorem isIdentifier_name {s : String} (h : name s ≠ "") : IsIdentifier (name s) := by
  have hchars : ∀ d ∈ (name s).toList, d.isAlphanum = true ∨ d = '_' := fun d hd =>
    isAlphanum_or_of_isNameChar (isNameChar_of_mem_name hd)
  unfold IsIdentifier
  rw [name, String.toList_ofList] at hchars ⊢
  cases hs : s.toList with
  | nil =>
    rw [name, hs] at h
    exact absurd rfl h
  | cons c cs =>
    rw [hs] at hchars
    unfold nameChars at hchars ⊢
    by_cases hdigit : c.isDigit = true
    · simp only [if_pos hdigit] at hchars ⊢
      exact ⟨'_', _, rfl, Or.inr rfl, fun d hd => hchars d (List.mem_cons_of_mem _ hd)⟩
    · simp only [if_neg hdigit, List.map_cons] at hchars ⊢
      refine ⟨_, _, rfl, ?_, fun d hd => hchars d (List.mem_cons_of_mem _ hd)⟩
      by_cases hname : isNameChar c = true
      · rw [if_pos hname]
        rcases isAlphanum_or_of_isNameChar hname with halpha | hunder
        · exact Or.inl ((Bool.or_eq_true _ _ ▸ halpha).resolve_right hdigit)
        · exact Or.inr hunder
      · rw [if_neg hname]
        exact Or.inr rfl

/-- All letters come behind the digits. -/
theorem not_isDigit_of_isAlpha {c : Char} (h : c.isAlpha = true) : ¬ c.isDigit = true := by
  have halpha : (decide ('A'.val ≤ c.val ∧ c.val ≤ 'Z'.val) || decide ('a'.val ≤ c.val) && decide (c.val ≤ 'z'.val)) = true := h
  have hletter : 'A'.val ≤ c.val := by
    simp only [Bool.or_eq_true, Bool.and_eq_true, decide_eq_true_eq] at halpha
    obtain ⟨hupper, -⟩ | ⟨hlower, -⟩ := halpha
    · exact hupper
    · exact UInt32.le_trans (by decide) hlower
  intro hdigit
  have hranges : (decide ('0'.val ≤ c.val) && decide (c.val ≤ '9'.val)) = true := hdigit
  rw [Bool.and_eq_true, decide_eq_true_eq, decide_eq_true_eq] at hranges
  exact absurd (UInt32.le_trans hletter hranges.2) (by decide)

/-- An identifier stands for itself. -/
theorem name_of_isIdentifier {s : String} (h : IsIdentifier s) : name s = s := by
  obtain ⟨c, cs, hs, hfirst, hrest⟩ := h
  have hkept : ∀ d ∈ c :: cs, (if isNameChar d then d else '_') = d := by
    intro d hd
    have hchar : d.isAlphanum = true ∨ d = '_' := by
      rcases List.mem_cons.1 hd with rfl | hd
      · exact hfirst.imp_left fun halpha => by simp [Char.isAlphanum, halpha]
      · exact hrest d hd
    exact if_pos (by simpa [isNameChar] using hchar)
  have hdigit : ¬ c.isDigit = true := by
    rcases hfirst with halpha | rfl
    · exact not_isDigit_of_isAlpha halpha
    · decide
  rw [name, hs, nameChars, if_neg hdigit, List.map_congr_left hkept, List.map_id', ← hs, String.ofList_toList]

/-- Identifiers are the names, apart from the empty one, that stand for themselves. -/
theorem isIdentifier_iff {s : String} : IsIdentifier s ↔ s ≠ "" ∧ name s = s := by
  constructor
  · intro h
    obtain ⟨c, cs, hs, -⟩ := id h
    exact ⟨fun hempty => by simp [hempty] at hs, name_of_isIdentifier h⟩
  · rintro ⟨hne, hname⟩
    rw [← hname]
    exact isIdentifier_name (by rwa [hname])

end CSource

end DeviceCatalog

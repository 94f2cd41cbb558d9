import DeviceCatalog.Artifact.DeviceTable
import DeviceCatalog.Proofs.ModelBuild
import DeviceCatalog.Proofs.Tokens
import Mathlib.Algebra.BigOperators.Group.List.Basic

/-!
# Raw literals and the delimiters that C++ allows

A raw literal reads back as its text, whatever the text is and whatever stands behind it. That its delimiter is one that C++ allows is
not so for every text: the search takes as many underscores as it needs, and C++ takes at most sixteen characters. A text gets a longer
one exactly when it holds the endings of all shorter ones, and these cannot overlap, so that only long texts do.
-/

namespace DeviceCatalog

namespace Text

/-- What begins with a character that is not in front stands behind the front. -/
theorem infix_of_infix_append {front needle text : List Char} {first : Char} (hfirst : first ∉ front)
    (h : first :: needle <:+: front ++ text) : first :: needle <:+: text := by
  induction front with
  | nil => exact h
  | cons c front ih =>
    obtain ⟨hc, hfront⟩ := not_or.1 (mt List.mem_cons.2 hfirst)
    rcases List.infix_cons_iff.1 h with hprefix | hinfix
    · exact absurd (List.cons_prefix_cons.1 hprefix).1 hc
    · exact ih hfront hinfix

end Text

namespace CSource

/-! ## Reading a literal -/

/-- The text of a raw literal, from its `R` on, and what stands behind it. -/
def readRawLiteral? : List Char → Option (List Char × List Char)
  | 'R' :: '"' :: cs => readRaw? cs
  | _ => none

/-- The search for a delimiter ends for every text, and the literal that is made with the delimiter reads as the text, whatever
stands behind it. -/
theorem raw_literal_reads_back (text : List Char) :
    (∃ n, DelimiterSearch text 0 n ∧
      rawDelimiter text = if Text.occursIn (rawEnding []) text then namedDelimiter n else []) ∧
    ∀ rest, readRawLiteral? (rawLiteral text ++ rest) = some (text, rest) := by
  obtain ⟨n, hn⟩ := exists_delimiterSearch text 0
  refine ⟨⟨n, hn, rawDelimiter_eq hn⟩, ?_⟩
  intro rest
  rw [rawLiteral_append]
  exact readRaw?_rawLiteral text rest

/-! ## Legal delimiters -/

/-- A character that C++ allows in a delimiter: no blank, no parenthesis, no backslash and no control. -/
def IsDelimiterChar (c : Char) : Prop :=
  c ≠ ' ' ∧ c ≠ '(' ∧ c ≠ ')' ∧ c ≠ '\\' ∧ 0x20 ≤ c.toNat ∧ ¬(0x7f ≤ c.toNat ∧ c.toNat ≤ 0x9f)

/-- A delimiter that C++ allows. -/
structure IsLegalDelimiter (delimiter : List Char) : Prop where
  length_le : delimiter.length ≤ 16
  chars : ∀ c ∈ delimiter, IsDelimiterChar c

/-- The delimiters of the search that are not too long for C++, in the order in which they are tried. -/
def shortDelimiters : List (List Char) :=
  [] :: (List.range 14).map namedDelimiter

/-- A delimiter is made of characters that may stand in one. -/
theorem isDelimiterChar_of_mem {c : Char} {text : List Char} (h : c ∈ rawDelimiter text) : IsDelimiterChar c := by
  rcases mem_rawDelimiter h with rfl | rfl | rfl | rfl <;> (unfold IsDelimiterChar; decide)

/-- The delimiter is legal exactly when one of the short ones is free in the text. -/
theorem isLegalDelimiter_rawDelimiter_iff {text : List Char} :
    IsLegalDelimiter (rawDelimiter text) ↔ ∃ d ∈ shortDelimiters, ¬ rawEnding d <:+: text := by
  rcases rawDelimiter_cases text with ⟨hplain, hdelimiter⟩ | ⟨hplain, n, hn, hdelimiter⟩
  · rw [hdelimiter]
    exact iff_of_true ⟨Nat.zero_le _, nofun⟩ ⟨[], List.mem_cons_self, hplain⟩
  · constructor
    · intro h
      have hlength := h.length_le
      rw [hdelimiter, length_namedDelimiter] at hlength
      exact ⟨namedDelimiter n, List.mem_cons_of_mem _ (List.mem_map_of_mem (List.mem_range.2 (by omega))), hn.ending_free⟩
    · rintro ⟨d, hd, hfree⟩
      rcases List.mem_cons.1 hd with rfl | hd
      · exact absurd hplain hfree
      · obtain ⟨k, hk, rfl⟩ := List.mem_map.1 hd
        have hle : n ≤ k := by
          by_contra hlt
          exact hfree (hn.ending_taken (Nat.zero_le k) (by omega))
        refine ⟨?_, fun c hc => isDelimiterChar_of_mem hc⟩
        rw [List.mem_range] at hk
        rw [hdelimiter, length_namedDelimiter]
        omega

/-! ## Texts that hold many endings -/

/-- Behind an ending, the ending of another delimiter is whole: it does not begin inside of it. -/
theorem infix_of_infix_rawEnding_append {d e text : List Char} (hne : e ≠ d) (hd : ')' ∉ d ∧ '"' ∉ d) (he : '"' ∉ e)
    (h : rawEnding e <:+: rawEnding d ++ text) : rawEnding e <:+: text := by
  rcases List.infix_cons_iff.1 h with ⟨behind, hbehind⟩ | hinfix
  · -- both begin at the same place, and each goes up to the first quote
    have hsame : e ++ '"' :: behind = d ++ '"' :: text := by
      simpa [rawEnding] using hbehind
    have hcut := Text.cutFirst?_append he behind
    rw [hsame, Text.cutFirst?_append hd.2] at hcut
    cases hcut
    exact absurd rfl hne
  · have hclose : ')' ∉ d ++ ['"'] := by
      rw [List.mem_append, List.mem_singleton]
      rintro (h | h)
      · exact hd.1 h
      · cases h
    exact Text.infix_of_infix_append hclose hinfix

/-- Endings of different delimiters stand side by side, so a text that holds them all is as long as all of them together. -/
theorem sum_length_le_of_taken {ds : List (List Char)} {text : List Char} (hnodup : ds.Nodup)
    (hds : ∀ d ∈ ds, ')' ∉ d ∧ '"' ∉ d) (h : ∀ d ∈ ds, rawEnding d <:+: text) :
    (ds.map fun d => (rawEnding d).length).sum ≤ text.length := by
  cases text with
  | nil =>
    have hnil : ds = [] := by
      rw [List.eq_nil_iff_forall_not_mem]
      intro d hd
      exact absurd (List.infix_nil.1 (h d hd)) (List.cons_ne_nil _ _)
    simp [hnil]
  | cons c cs =>
    -- The induction is on the text. An ending at its start is taken away as a whole with its delimiter; the others cannot overlap it.
    by_cases hstart : ∃ d ∈ ds, rawEnding d <+: c :: cs
    · obtain ⟨d, hd, rest, hrest⟩ := hstart
      have hothers : ∀ e ∈ ds.erase d, rawEnding e <:+: rest := by
        intro e he
        obtain ⟨hne, hmem⟩ := hnodup.mem_erase_iff.1 he
        have hinfix := h e hmem
        rw [← hrest] at hinfix
        exact infix_of_infix_rawEnding_append hne (hds d hd) (hds e hmem).2 hinfix
      have hlength : (c :: cs).length = (rawEnding d).length + rest.length := by
        rw [← hrest, List.length_append]
      have hshorter : rest.length < (c :: cs).length := by
        rw [hlength, length_rawEnding]
        omega
      have hsum := sum_length_le_of_taken (hnodup.erase d) (fun e he => hds e (List.mem_of_mem_erase he)) hothers
      rw [((List.perm_cons_erase hd).map fun d => (rawEnding d).length).sum_eq, List.map_cons, List.sum_cons, hlength]
      omega
    · have hlater : ∀ d ∈ ds, rawEnding d <:+: cs := by
        intro d hd
        rcases List.infix_cons_iff.1 (h d hd) with hprefix | hinfix
        · exact absurd ⟨d, hd, hprefix⟩ hstart
        · exact hinfix
      exact (sum_length_le_of_taken hnodup hds hlater).trans (Nat.le_succ _)
termination_by text.length

/-- No delimiter that is short enough holds a parenthesis or a quote. -/
theorem notMem_of_mem_shortDelimiters : ∀ d ∈ shortDelimiters, ')' ∉ d ∧ '"' ∉ d := by
  decide

/-- A text that holds no free short delimiter has at least 163 characters. -/
theorem le_length_of_all_taken {text : List Char} (h : ∀ d ∈ shortDelimiters, rawEnding d <:+: text) : 163 ≤ text.length := by
  have hnodup : shortDelimiters.Nodup := by decide
  have hsum : (shortDelimiters.map fun d => (rawEnding d).length).sum = 163 := by decide
  rw [← hsum]
  exact sum_length_le_of_taken hnodup notMem_of_mem_shortDelimiters h

end CSource

namespace Artifact

open CSource

/-! ## The table of records -/

/-- The texts of a device type that stand in its record as raw literals. -/
def inlinedTexts (o : Options) (d : DeviceType) : List String :=
  [d.typeName, d.addressSpec, d.detectionValues, d.initValues, d.pollInfo.compact] ++
    (if o.includeDeviceInfo then [d.deviceInfo.compact] else [])

/-- The raw literals of a record are those of the texts that it inlines. -/
theorem raw_mem_recordColumns_iff {o : Options} {r : Record} {s : String} :
    Expr.raw s ∈ recordColumns o r ↔ s ∈ inlinedTexts o r.device := by
  unfold recordColumns inlinedTexts
  cases o.includeDeviceInfo <;> cases o.decoding <;> simp

/-- The delimiter of a text is one that C++ allows exactly when one of the plain delimiter and the fourteen named ones of at most sixteen
characters is free in it, so always when the text has fewer than 163 characters; its characters are allowed in any case. The
literals in the table of records are those of the texts of its device types, so the same decides on them. -/
theorem delimiters_legal_iff (text : List Char) (m : Model) (o : Options) :
    (∀ c ∈ rawDelimiter text, IsDelimiterChar c) ∧
    (IsLegalDelimiter (rawDelimiter text) ↔ ∃ d ∈ shortDelimiters, ¬ rawEnding d <:+: text) ∧
    (IsLegalDelimiter (rawDelimiter text) ∨ 163 ≤ text.length) ∧
    ((∀ r ∈ m.records, ∀ s, Expr.raw s ∈ recordColumns o r → IsLegalDelimiter (rawDelimiter s.toList)) ↔
      ∀ r ∈ m.records, ∀ s ∈ inlinedTexts o r.device, ∃ d ∈ shortDelimiters, ¬ rawEnding d <:+: s.toList) := by
  refine ⟨?_, isLegalDelimiter_rawDelimiter_iff, ?_, ?_⟩
  · intro c hc
    exact isDelimiterChar_of_mem hc
  · by_cases h : ∃ d ∈ shortDelimiters, ¬ rawEnding d <:+: text
    · exact Or.inl (isLegalDelimiter_rawDelimiter_iff.2 h)
    · refine Or.inr (le_length_of_all_taken ?_)
      intro d hd
      by_contra hfree
      exact h ⟨d, hd, hfree⟩
  · simp only [raw_mem_recordColumns_iff, isLegalDelimiter_rawDelimiter_iff]

/-- A type name made of the endings of all short delimiters gets a delimiter of seventeen characters. -/
theorem delimiter_too_long :
    let text := String.ofList (shortDelimiters.flatMap rawEnding)
    ∃ m r, (Model.build [{ key := "A", typeName := text }]).outcome = .ok m ∧ r ∈ m.records ∧ Expr.raw text ∈ recordColumns {} r ∧
      rawDelimiter text.toList = namedDelimiter 14 ∧ ¬ IsLegalDelimiter (rawDelimiter text.toList) := by
  intro text
  obtain ⟨m, r, hm, hrecords, hdevice, -⟩ := Model.exists_build_singleton (d := { key := "A", typeName := text }) rfl
  have hdelimiter : rawDelimiter text.toList = namedDelimiter 14 := by
    rw [String.toList_ofList]
    decide +kernel
  refine ⟨m, r, hm, by simp [hrecords], ?_, hdelimiter, ?_⟩
  · rw [raw_mem_recordColumns_iff, hdevice]
    exact List.mem_cons_self
  · intro h
    have hlength := h.length_le
    rw [hdelimiter] at hlength
    exact absurd hlength (by decide)

end Artifact

end DeviceCatalog

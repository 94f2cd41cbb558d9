import DeviceCatalog.Proofs.AddressSpec
import DeviceCatalog.Proofs.Trimming
import Mathlib.Tactic.IntervalCases
import Mathlib.Tactic.SplitIfs

/-!
# Address specs are read by their grammar

The reader of specs accepts exactly what the grammar allows and names the leftmost token outside it. The grammar trims its tokens and
speaks of digits and of ranges; here these words are given their meaning: a text without the blanks around it, a hexadecimal digit of
either case, every address between two others.
-/

namespace DeviceCatalog.Address

/-! ## Digits -/

/-- The character is the hexadecimal digit of the number, in lower or upper case. -/
def WritesDigit (c : Char) (n : Nat) : Prop :=
  c = Nat.digitChar n ∨ c = (Nat.digitChar n).toUpper

theorem toNat_digitChar {n : Nat} (h : n < 16) : (Nat.digitChar n).toNat = if n < 10 then 48 + n else 87 + n := by
  interval_cases n <;> rfl

theorem toNat_toUpper_digitChar {n : Nat} (h : n < 16) :
    (Nat.digitChar n).toUpper.toNat = if n < 10 then 48 + n else 55 + n := by
  interval_cases n <;> rfl

/-- A character is read as a hexadecimal digit when it writes one. -/
theorem hexDigit?_eq_some_iff {c : Char} {n : Nat} : Text.hexDigit? c = some n ↔ n < 16 ∧ WritesDigit c n := by
  constructor
  · intro h
    unfold Text.hexDigit? at h
    split_ifs at h with hdigit hlower hupper
    · obtain ⟨hfirst, hlast⟩ : 48 ≤ c.toNat ∧ c.toNat ≤ 57 := hdigit
      obtain rfl : c.toNat - 48 = n := Option.some.inj h
      have hn : c.toNat - 48 < 16 := by omega
      refine ⟨hn, Or.inl (Char.toNat_inj.1 ?_)⟩
      rw [toNat_digitChar hn, if_pos (by omega)]
      omega
    · obtain ⟨hfirst, hlast⟩ : 97 ≤ c.toNat ∧ c.toNat ≤ 102 := hlower
      obtain rfl : c.toNat - 97 + 10 = n := Option.some.inj h
      have hn : c.toNat - 97 + 10 < 16 := by omega
      refine ⟨hn, Or.inl (Char.toNat_inj.1 ?_)⟩
      rw [toNat_digitChar hn, if_neg (by omega)]
      omega
    · obtain ⟨hfirst, hlast⟩ : 65 ≤ c.toNat ∧ c.toNat ≤ 70 := hupper
      obtain rfl : c.toNat - 65 + 10 = n := Option.some.inj h
      have hn : c.toNat - 65 + 10 < 16 := by omega
      refine ⟨hn, Or.inr (Char.toNat_inj.1 ?_)⟩
      rw [toNat_toUpper_digitChar hn, if_neg (by omega)]
      omega
  · rintro ⟨hn, h⟩
    rcases h with rfl | rfl <;> interval_cases n <;> rfl

/-- An address is spelled with two hexadecimal digits behind its prefix. -/
theorem spells_iff {cs : List Char} {a : Address} :
    Spells cs a ↔
      ∃ high low, cs = ['0', 'x', high, low] ∧ WritesDigit high (a.toNat / 16) ∧ WritesDigit low (a.toNat % 16) := by
  constructor
  · rintro ⟨high, low, h, l, rfl, hhigh, hlow, rfl⟩
    obtain ⟨hh, hhigh⟩ := hexDigit?_eq_some_iff.1 hhigh
    obtain ⟨hl, hlow⟩ := hexDigit?_eq_some_iff.1 hlow
    have hnat : (UInt8.ofNat (16 * h + l)).toNat = 16 * h + l := UInt8.toNat_ofNat_of_lt' (by show _ < 256; omega)
    refine ⟨high, low, rfl, ?_, ?_⟩
    · rwa [hnat, show (16 * h + l) / 16 = h by omega]
    · rwa [hnat, show (16 * h + l) % 16 = l by omega]
  · rintro ⟨high, low, rfl, hhigh, hlow⟩
    have ha := a.toNat_lt
    refine ⟨high, low, a.toNat / 16, a.toNat % 16, rfl, hexDigit?_eq_some_iff.2 ⟨by omega, hhigh⟩,
      hexDigit?_eq_some_iff.2 ⟨by omega, hlow⟩, ?_⟩
    rw [Nat.div_add_mod, UInt8.ofNat_toNat]

/-! ## Ranges -/

/-- A span holds the addresses between its ends. -/
theorem mem_span_iff {first last a : Address} : a ∈ span first last ↔ first ≤ a ∧ a ≤ last := by
  have hlast := last.toNat_lt
  simp only [span, List.mem_map, List.mem_range, UInt8.le_iff_toNat_le]
  constructor
  · rintro ⟨i, hi, rfl⟩
    rw [UInt8.toNat_ofNat_of_lt' (by show _ < 256; omega)]
    omega
  · rintro ⟨hfirst, ha⟩
    refine ⟨a.toNat - first.toNat, by omega, ?_⟩
    rw [Nat.add_sub_cancel' hfirst, UInt8.ofNat_toNat]

/-- A range lists its addresses in rising order. -/
theorem pairwise_span (first last : Address) : (span first last).Pairwise (· < ·) := by
  have hlast := last.toNat_lt
  rw [span, List.pairwise_map]
  refine List.pairwise_lt_range.imp_of_mem ?_
  intro i j hi hj hij
  rw [List.mem_range] at hi hj
  rw [UInt8.lt_iff_toNat_lt, UInt8.toNat_ofNat_of_lt' (by show _ < 256; omega), UInt8.toNat_ofNat_of_lt' (by show _ < 256; omega)]
  omega

/-! ## The reader -/

/-- A spec is accepted exactly when it denotes addresses, and then with these addresses in order; any other spec is refused with its
leftmost token that is none, and with the spec as it was given. Specs and tokens are trimmed of the blanks around them, an address is
`0x` with two digits of either case, and a range stands for every address from its first to its last one, so for none when it runs
backwards. -/
theorem readSpec_accepts_grammar (spec : String) :
    (∀ addresses, (readSpec spec).outcome = .ok addresses ↔ Denotes spec addresses) ∧
    (∀ f, (readSpec spec).outcome = .error f ↔ ∃ token, FirstMalformed spec token ∧ f = .malformedAddresses spec token) ∧
    (∀ cs trimmed, Text.trimList cs = trimmed ↔ Text.TrimsTo cs trimmed) ∧
    (∀ cs a, Spells cs a ↔
      ∃ high low, cs = ['0', 'x', high, low] ∧ WritesDigit high (a.toNat / 16) ∧ WritesDigit low (a.toNat % 16)) ∧
    ∀ first last, (span first last).Pairwise (· < ·) ∧ ∀ a, a ∈ span first last ↔ first ≤ a ∧ a ≤ last := by
  refine ⟨?_, ?_, ?_, ?_, ?_⟩
  · intro addresses
    exact outcome_readSpec_eq_ok_iff
  · intro f
    exact outcome_readSpec_eq_error_iff
  · intro cs trimmed
    exact Text.trimList_eq_iff
  · intro cs a
    exact spells_iff
  · intro first last
    exact ⟨pairwise_span first last, fun a => mem_span_iff⟩

/-- A range that ends at the last address, and one that runs backwards. -/
example : (readSpec " 0xfE-0xff ,0x12-0x10").outcome = .ok [0xfe, 0xff] := by
  rfl

end DeviceCatalog.Address

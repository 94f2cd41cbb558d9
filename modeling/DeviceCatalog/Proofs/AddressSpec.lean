import DeviceCatalog.Address.Spec
import DeviceCatalog.Proofs.FirstFailure
import DeviceCatalog.Proofs.Pieces

/-!
# The grammar of address specs

What a spec denotes, said without the reader: `Spells` for one address, `Token` for an address or a range, `Parts` for what stands
between the commas. The reader accepts the specs that denote something, and refuses the others with their leftmost token outside
the grammar.
-/

namespace DeviceCatalog

namespace Address

/-! ## The grammar -/

/-- The text is `0x` and the two hexadecimal digits of the address. -/
def Spells (cs : List Char) (a : Address) : Prop :=
  ∃ high low h l, cs = ['0', 'x', high, low] ∧ Text.hexDigit? high = some h ∧ Text.hexDigit? low = some l ∧
    a = UInt8.ofNat (16 * h + l)

/-- A trimmed token is an address, or two of them with a dash between, which stand for every address from the first to the last. -/
inductive Token : List Char → List Address → Prop where
  | single {cs : List Char} {a : Address} (h : Spells cs a) : Token cs [a]
  | range {cs ds : List Char} {a b : Address} (h : Spells cs a) (h' : Spells ds b) : Token (cs ++ '-' :: ds) (span a b)

/-- The parts of a spec between its commas; a blank spec has none. -/
def Parts (spec : String) (parts : List (List Char)) : Prop :=
  if Text.trimList spec.toList = [] then parts = []
  else parts ≠ [] ∧ (∀ p ∈ parts, ',' ∉ p) ∧ List.intercalate [','] parts = Text.trimList spec.toList

/-- All parts of the spec are tokens, and these are their addresses in order. -/
def Denotes (spec : String) (addresses : List Address) : Prop :=
  ∃ parts lists, Parts spec parts ∧ List.Forall₂ (fun p list => Token (Text.trimList p) list) parts lists ∧
    addresses = lists.flatten

/-- The leftmost part of the spec that is no token, trimmed. -/
def FirstMalformed (spec token : String) : Prop :=
  ∃ before p after, Parts spec (before ++ p :: after) ∧ (∀ q ∈ before, ∃ list, Token (Text.trimList q) list) ∧
    (∀ list, ¬ Token (Text.trimList p) list) ∧ token = String.ofList (Text.trimList p)

/-! ## One token -/

/-- A text is read as an address exactly when it spells it. -/
theorem parse?_eq_some_iff {cs : List Char} {a : Address} : parse? cs = some a ↔ Spells cs a := by
  constructor
  · intro h
    unfold parse? at h
    split at h
    · rename_i high low
      obtain ⟨x, hx, h⟩ := Option.bind_eq_some_iff.1 h
      obtain ⟨y, hy, h⟩ := Option.bind_eq_some_iff.1 h
      exact ⟨high, low, x, y, rfl, hx, hy, (Option.some.inj h).symm⟩
    · cases h
  · intro h
    obtain ⟨high, low, x, y, rfl, hx, hy, rfl⟩ := h
    rw [parse?, hx, hy]
    rfl

/-- An address holds no dash. -/
theorem Spells.dash_not_mem {cs : List Char} {a : Address} (h : Spells cs a) : '-' ∉ cs := by
  obtain ⟨high, low, x, y, rfl, hx, hy, -⟩ := h
  have hdash : Text.hexDigit? '-' = none := by decide
  intro hmem
  simp only [List.mem_cons, List.not_mem_nil, or_false] at hmem
  rcases hmem with h | h | rfl | rfl
  · exact absurd h (by decide)
  · exact absurd h (by decide)
  · rw [hdash] at hx
    cases hx
  · rw [hdash] at hy
    cases hy

theorem span_self (a : Address) : span a a = [a] := by
  have h : a.toNat + 1 - a.toNat = 1 := by omega
  rw [span, h]
  exact congrArg (fun b => [b]) UInt8.ofNat_toNat

/-- What is read from a token is what the token writes. -/
theorem parseToken?_eq_some {token : List Char} {first last : Address} (h : parseToken? token = some (first, last)) :
    Token token (span first last) := by
  unfold parseToken? at h
  split at h
  · rename_i cs ds hcut
    obtain ⟨a, ha, h⟩ := Option.bind_eq_some_iff.1 h
    obtain ⟨b, hb, h⟩ := Option.bind_eq_some_iff.1 h
    cases h
    rw [Text.eq_append_of_cutFirst? hcut]
    exact .range (parse?_eq_some_iff.1 ha) (parse?_eq_some_iff.1 hb)
  · obtain ⟨a, ha, h⟩ := Option.map_eq_some_iff.1 h
    cases h
    rw [span_self]
    exact .single (parse?_eq_some_iff.1 ha)

/-- What a token writes is read from it. -/
theorem Token.parse {token : List Char} {list : List Address} (h : Token token list) :
    ∃ first last, parseToken? token = some (first, last) ∧ span first last = list := by
  cases h with
  | @single _ a h =>
    refine ⟨a, a, ?_, span_self a⟩
    rw [parseToken?, Text.cutFirst?_eq_none_iff.2 h.dash_not_mem]
    simp only [parse?_eq_some_iff.2 h, Option.map_some]
  | @range cs ds a b h h' =>
    refine ⟨a, b, ?_, rfl⟩
    rw [parseToken?, Text.cutFirst?_append h.dash_not_mem]
    simp only [parse?_eq_some_iff.2 h, parse?_eq_some_iff.2 h']
    rfl

/-- A token that can be read gives the addresses of its span. -/
theorem outcome_readToken_of_parse {spec : String} {token : List Char} {first last : Address}
    (h : parseToken? token = some (first, last)) : (readToken spec token).outcome = .ok (span first last) := by
  simp only [readToken, h]
  split <;> rfl

/-- What is no token is refused by its own text. -/
theorem outcome_readToken_eq_error_iff {spec : String} {token : List Char} {f : Failure} :
    (readToken spec token).outcome = .error f ↔
      (∀ list, ¬ Token token list) ∧ f = .malformedAddresses spec (String.ofList token) := by
  cases hparse : parseToken? token with
  | none =>
    have hnot : ∀ list, ¬ Token token list := by
      intro list h
      obtain ⟨first, last, hsome, -⟩ := h.parse
      rw [hparse] at hsome
      cases hsome
    rw [readToken, hparse]
    exact ⟨fun h => ⟨hnot, (Except.error.inj h).symm⟩, fun h => congrArg Except.error h.2.symm⟩
  | some p =>
    rw [outcome_readToken_of_parse hparse]
    exact ⟨nofun, fun h => absurd (parseToken?_eq_some hparse) (h.1 _)⟩

/-- A token reads as the addresses that it stands for. -/
theorem outcome_readToken_eq_ok_iff {spec : String} {token : List Char} {list : List Address} :
    (readToken spec token).outcome = .ok list ↔ Token token list := by
  constructor
  · intro h
    cases hparse : parseToken? token with
    | none =>
      rw [readToken, hparse] at h
      cases h
    | some p =>
      rw [outcome_readToken_of_parse hparse] at h
      cases h
      exact parseToken?_eq_some hparse
  · intro h
    obtain ⟨first, last, hparse, rfl⟩ := h.parse
    exact outcome_readToken_of_parse hparse

/-! ## The spec -/

/-- The tokens that the reader sees are the parts, trimmed. -/
theorem tokens_of_parts {spec : String} {parts : List (List Char)} (h : Parts spec parts) :
    tokens spec = parts.map Text.trimList := by
  unfold Parts at h
  unfold tokens
  split at h
  · rename_i hblank
    rw [hblank, h]
    rfl
  · rename_i hblank
    split
    · rename_i hnil
      exact absurd hnil hblank
    · rename_i c cs hcons
      rw [← hcons, Text.pieces_eq_iff.2 h]

/-- Every spec has parts. -/
theorem exists_parts (spec : String) : ∃ parts, Parts spec parts := by
  by_cases h : Text.trimList spec.toList = []
  · exact ⟨[], by rw [Parts, if_pos h]⟩
  · exact ⟨Text.pieces ',' (Text.trimList spec.toList), by rw [Parts, if_neg h]; exact Text.pieces_eq_iff.1 rfl⟩

/-- A spec is accepted with the addresses that it denotes. -/
theorem outcome_readSpec_eq_ok_iff {spec : String} {addresses : List Address} :
    (readSpec spec).outcome = .ok addresses ↔ Denotes spec addresses := by
  rw [readSpec, Logged.outcome_bind, Logged.outcome_mapM, Outcome.bind_eq_ok_iff]
  simp only [Outcome.mapM_eq_ok_iff, outcome_readToken_eq_ok_iff]
  constructor
  · intro h
    obtain ⟨lists, htokens, h⟩ := h
    obtain ⟨parts, hparts⟩ := exists_parts spec
    rw [tokens_of_parts hparts, List.forall₂_map_left_iff] at htokens
    exact ⟨parts, lists, hparts, htokens, (Except.ok.inj h).symm⟩
  · intro h
    obtain ⟨parts, lists, hparts, htokens, rfl⟩ := h
    refine ⟨lists, ?_, rfl⟩
    rw [tokens_of_parts hparts, List.forall₂_map_left_iff]
    exact htokens

/-- A spec is refused with its leftmost token outside the grammar. -/
theorem outcome_readSpec_eq_error_iff {spec : String} {f : Failure} :
    (readSpec spec).outcome = .error f ↔ ∃ token, FirstMalformed spec token ∧ f = .malformedAddresses spec token := by
  rw [readSpec, Logged.outcome_bind, Logged.outcome_mapM, Outcome.bind_eq_error_iff]
  simp only [Outcome.mapM_eq_error_iff, outcome_readToken_eq_ok_iff, outcome_readToken_eq_error_iff]
  obtain ⟨parts, hparts⟩ := exists_parts spec
  constructor
  · intro h
    rcases h with ⟨before, token, after, hsplit, hbefore, hnot, rfl⟩ | ⟨_, _, h⟩
    · rw [tokens_of_parts hparts] at hsplit
      obtain ⟨before, rest, rfl, rfl, hrest⟩ := List.map_eq_append_iff.1 hsplit
      obtain ⟨p, after, rfl, rfl, rfl⟩ := List.map_eq_cons_iff.1 hrest
      exact ⟨_, ⟨before, p, after, hparts, fun q hq => hbefore _ (List.mem_map_of_mem hq), hnot, rfl⟩, rfl⟩
    · cases h
  · intro h
    obtain ⟨token, ⟨before, p, after, hparts, hbefore, hnot, rfl⟩, rfl⟩ := h
    refine Or.inl ⟨before.map Text.trimList, Text.trimList p, after.map Text.trimList, ?_, ?_, hnot, rfl⟩
    · rw [tokens_of_parts hparts, List.map_append, List.map_cons]
    · exact List.forall_mem_map.2 hbefore

end Address

end DeviceCatalog

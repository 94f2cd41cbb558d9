import DeviceCatalog.Artifact.Bindings
import DeviceCatalog.Proofs.Identifiers

/-!
# Which records have a decoder

The identifiers of the decoders so far are those that the records in front make, so a record gets a decoder exactly when it is the first
one with its identifier; the others are reported in their order (`assignDecoders_eq`).
-/

namespace DeviceCatalog.Artifact

open CSource

/-- The record makes an identifier that no record in front of its position makes. -/
def OpensClass (rs : List Record) (entry : Record × Nat) : Prop :=
  entry.1.device.typeName ≠ "" ∧ typeIdentifier entry.1 ∉ (rs.take entry.2).map typeIdentifier

/-- The record makes an identifier that a record in front of its position makes. -/
def JoinsClass (rs : List Record) (entry : Record × Nat) : Prop :=
  entry.1.device.typeName ≠ "" ∧ typeIdentifier entry.1 ∈ (rs.take entry.2).map typeIdentifier

instance (rs : List Record) (entry : Record × Nat) : Decidable (OpensClass rs entry) :=
  inferInstanceAs (Decidable (_ ∧ _))

instance (rs : List Record) (entry : Record × Nat) : Decidable (JoinsClass rs entry) :=
  inferInstanceAs (Decidable (_ ∧ _))

/-- The records with a type name that are the first ones with their identifier, in order. -/
def firstOfClass (rs : List Record) : List Record :=
  (rs.zipIdx.filter fun entry => OpensClass rs entry).map Prod.fst

/-- The records with a type name whose identifier an earlier record has, in order. -/
def laterOfClass (rs : List Record) : List Record :=
  (rs.zipIdx.filter fun entry => JoinsClass rs entry).map Prod.fst

/-- A record has an empty identifier only without a type name. -/
theorem typeIdentifier_ne_empty {r : Record} (h : r.device.typeName ≠ "") : typeIdentifier r ≠ "" := fun hempty =>
  h (name_eq_empty_iff.1 hempty)

/-! ## The identifiers taken -/

/-- The identifiers taken are those that the records in front make; the empty one, which only records without a type name make, does not
matter. -/
def TakenBy (front : List Record) (taken : List String) : Prop :=
  ∀ s, s ≠ "" → (s ∈ taken ↔ s ∈ front.map typeIdentifier)

theorem takenBy_nil : TakenBy [] [] := fun _ _ => Iff.rfl

theorem map_typeIdentifier_concat (front : List Record) (r : Record) :
    (front ++ [r]).map typeIdentifier = front.map typeIdentifier ++ [typeIdentifier r] := by
  rw [List.map_append, List.map_singleton]

section TakenBy

variable {front : List Record} {taken : List String} {r : Record}

/-- A record without a type name takes nothing. -/
theorem TakenBy.unnamed (h : TakenBy front taken) (hname : r.device.typeName = "") : TakenBy (front ++ [r]) taken := by
  have hidentifier : typeIdentifier r = "" := name_eq_empty_iff.2 hname
  intro s hs
  rw [map_typeIdentifier_concat, List.mem_append, List.mem_singleton, hidentifier, or_iff_left hs]
  exact h s hs

/-- Neither does one whose identifier is taken. -/
theorem TakenBy.joins (h : TakenBy front taken) (hmem : typeIdentifier r ∈ front.map typeIdentifier) :
    TakenBy (front ++ [r]) taken := by
  intro s hs
  rw [h s hs, map_typeIdentifier_concat, List.mem_append, List.mem_singleton]
  exact ⟨Or.inl, fun hcases => hcases.elim id fun heq => heq ▸ hmem⟩

/-- Another one takes its identifier. -/
theorem TakenBy.opens (h : TakenBy front taken) (r : Record) : TakenBy (front ++ [r]) (typeIdentifier r :: taken) := by
  intro s hs
  rw [List.mem_cons, h s hs, map_typeIdentifier_concat, List.mem_append, List.mem_singleton, or_comm]

/-- An identifier is taken when a record in front has it. -/
theorem TakenBy.contains_iff (h : TakenBy front taken) (hname : r.device.typeName ≠ "") :
    taken.contains (typeIdentifier r) = true ↔ typeIdentifier r ∈ front.map typeIdentifier := by
  rw [List.contains_iff_mem]
  exact h _ (typeIdentifier_ne_empty hname)

end TakenBy

/-! ## The run -/

/-- The run behind some records, when the identifiers taken are those that these records make. -/
theorem assignDecoders_behind {front : List Record} {taken : List String} (h : TakenBy front taken) (rs : List Record) :
    assignDecoders taken rs =
      (((rs.zipIdx front.length).filter fun entry => OpensClass (front ++ rs) entry).map Prod.fst,
        ((rs.zipIdx front.length).filter fun entry => JoinsClass (front ++ rs) entry).map Prod.fst) := by
  induction rs generalizing front taken with
  | nil => rfl
  | cons r rs ih =>
    have hfront : (front ++ [r] ++ rs).take front.length = front := by
      rw [List.append_assoc, List.take_append_of_le_length (Nat.le_refl _), List.take_length]
    have hbehind : front ++ r :: rs = (front ++ [r]) ++ rs := by
      rw [List.append_assoc, List.singleton_append]
    have hlength : front.length + 1 = (front ++ [r]).length := by
      rw [List.length_append, List.length_singleton]
    rw [assignDecoders, List.zipIdx_cons, hbehind, hlength]
    by_cases hname : r.device.typeName = ""
    · rw [if_pos (String.isEmpty_iff.2 hname), List.filter_cons_of_neg fun hopens => (of_decide_eq_true hopens).1 hname,
        List.filter_cons_of_neg fun hjoins => (of_decide_eq_true hjoins).1 hname]
      exact ih (h.unnamed hname)
    · rw [if_neg fun hempty => hname (String.isEmpty_iff.1 hempty)]
      by_cases hmem : typeIdentifier r ∈ front.map typeIdentifier
      · have hjoins : JoinsClass (front ++ [r] ++ rs) (r, front.length) := ⟨hname, by rwa [hfront]⟩
        have hopens : ¬ OpensClass (front ++ [r] ++ rs) (r, front.length) := fun hopens => hopens.2 hjoins.2
        rw [if_pos ((h.contains_iff hname).2 hmem), List.filter_cons_of_neg (by simpa using hopens),
          List.filter_cons_of_pos (by simpa using hjoins), List.map_cons, ih (h.joins hmem)]
      · have hopens : OpensClass (front ++ [r] ++ rs) (r, front.length) := ⟨hname, by rwa [hfront]⟩
        have hjoins : ¬ JoinsClass (front ++ [r] ++ rs) (r, front.length) := fun hjoins => hopens.2 hjoins.2
        rw [if_neg fun hcontains => hmem ((h.contains_iff hname).1 hcontains), List.filter_cons_of_pos (by simpa using hopens),
          List.filter_cons_of_neg (by simpa using hjoins), List.map_cons, ih (h.opens r)]

/-- The first record of every identifier gets a decoder, the later ones are left out. -/
theorem assignDecoders_eq (rs : List Record) : assignDecoders [] rs = (firstOfClass rs, laterOfClass rs) :=
  assignDecoders_behind takenBy_nil rs

/-- The bindings of a model have the decoders of the first records of every identifier, and there is one notice for each later record. -/
theorem ofModel_eq (m : Model) (o : ScriptOptions) :
    Bindings.ofModel m o =
      ⟨(laterOfClass m.records).map fun r => .decoderTaken r.device.key r.device.typeName, .ok ⟨m.records, firstOfClass m.records, o⟩⟩ := by
  have hrun : Bindings.ofModel m o =
      ⟨((laterOfClass m.records).map fun r => .decoderTaken r.device.key r.device.typeName) ++ [],
        .ok ⟨m.records, firstOfClass m.records, o⟩⟩ := by
    rw [Bindings.ofModel, assignDecoders_eq]
    rfl
  rw [hrun, List.append_nil]

/-! ## The chosen records -/

/-- The records in front are chosen as if there were no others. -/
theorem firstOfClass_append (xs ys : List Record) :
    firstOfClass (xs ++ ys) =
      firstOfClass xs ++ ((ys.zipIdx xs.length).filter fun entry => OpensClass (xs ++ ys) entry).map Prod.fst := by
  have hfront : (xs.zipIdx.filter fun entry => OpensClass (xs ++ ys) entry) = xs.zipIdx.filter fun entry => OpensClass xs entry := by
    refine List.filter_congr fun entry hentry => decide_eq_decide.2 ?_
    have hle : entry.2 ≤ xs.length := Nat.le_of_lt (List.getElem?_eq_some_iff.1 (List.mem_zipIdx_iff_getElem?.1 hentry)).1
    rw [OpensClass, OpensClass, List.take_append_of_le_length hle]
  rw [firstOfClass, firstOfClass, List.zipIdx_append, List.filter_append, List.map_append, hfront, Nat.zero_add]

/-- A record is chosen unless a record in front has its identifier, and no record behind it with this identifier is. -/
theorem exists_firstOfClass_eq (before : List Record) (r : Record) (after : List Record) :
    ∃ later, (∀ d ∈ later, typeIdentifier d ≠ typeIdentifier r) ∧
      firstOfClass (before ++ r :: after) = firstOfClass before ++
        ((if r.device.typeName ≠ "" ∧ typeIdentifier r ∉ before.map typeIdentifier then [r] else []) ++ later) := by
  have hfront : (before ++ r :: after).take before.length = before := by
    rw [List.take_append_of_le_length (Nat.le_refl _), List.take_length]
  have hopens : OpensClass (before ++ r :: after) (r, before.length) ↔
      r.device.typeName ≠ "" ∧ typeIdentifier r ∉ before.map typeIdentifier := by
    rw [OpensClass, hfront]
  refine ⟨((after.zipIdx (before.length + 1)).filter fun entry => OpensClass (before ++ r :: after) entry).map Prod.fst, ?_, ?_⟩
  · intro d hd hsame
    obtain ⟨entry, hentry, rfl⟩ := List.mem_map.1 hd
    obtain ⟨hmem, hdecide⟩ := List.mem_filter.1 hentry
    have hbehind : before.length < entry.2 := List.le_snd_of_mem_zipIdx hmem
    refine (of_decide_eq_true hdecide).2 (List.mem_map.2 ⟨r, ?_, hsame.symm⟩)
    refine List.mem_of_getElem? (i := before.length) ?_
    rw [List.getElem?_take, if_pos hbehind, List.getElem?_append_right (Nat.le_refl _), Nat.sub_self]
    rfl
  · rw [firstOfClass_append, List.zipIdx_cons, List.filter_cons, decide_eq_decide.2 hopens]
    congr 1
    by_cases h : r.device.typeName ≠ "" ∧ typeIdentifier r ∉ before.map typeIdentifier
    · rw [if_pos h, if_pos (decide_eq_true h)]
      rfl
    · rw [if_neg h, if_neg (by rwa [decide_eq_true_iff])]
      rfl

/-- The chosen records are among the records and have a type name. -/
theorem mem_of_mem_firstOfClass {rs : List Record} {d : Record} (h : d ∈ firstOfClass rs) : d ∈ rs ∧ d.device.typeName ≠ "" := by
  obtain ⟨entry, hentry, rfl⟩ := List.mem_map.1 h
  obtain ⟨hmem, hdecide⟩ := List.mem_filter.1 hentry
  exact ⟨List.mem_of_getElem? (List.mem_zipIdx_iff_getElem?.1 hmem), (of_decide_eq_true hdecide).1⟩

/-- Every identifier of a type name is that of a chosen record. -/
theorem exists_mem_firstOfClass {rs : List Record} {r : Record} (hr : r ∈ rs) (hname : r.device.typeName ≠ "") :
    ∃ d ∈ firstOfClass rs, typeIdentifier d = typeIdentifier r := by
  obtain ⟨d, hfind⟩ : ∃ d, rs.find? (fun d => typeIdentifier d = typeIdentifier r) = some d := by
    rw [← Option.isSome_iff_exists, List.find?_isSome]
    exact ⟨r, hr, decide_eq_true rfl⟩
  obtain ⟨hsame, before, after, rfl, hbefore⟩ := List.find?_eq_some_iff_append.1 hfind
  have hsame := of_decide_eq_true hsame
  have hopens : d.device.typeName ≠ "" ∧ typeIdentifier d ∉ before.map typeIdentifier := by
    refine ⟨fun hempty => typeIdentifier_ne_empty hname (hsame ▸ name_eq_empty_iff.2 hempty), fun hmem => ?_⟩
    obtain ⟨d', hd', heq⟩ := List.mem_map.1 hmem
    have hnot := hbefore d' hd'
    rw [decide_eq_true (heq.trans hsame)] at hnot
    cases hnot
  obtain ⟨later, -, hlist⟩ := exists_firstOfClass_eq before d after
  refine ⟨d, ?_, hsame⟩
  rw [hlist, if_pos hopens]
  exact List.mem_append_right _ List.mem_cons_self

end DeviceCatalog.Artifact

import DeviceCatalog.Proofs.ModelBuild

/-!
# Poll layouts: the fields tile the response

The placed fields stand end to end: `Consecutive` says so of a list of fields between two byte positions, and laying out a schema
makes such a list (`consecutive_place`). What a layout promises about offsets and bytes is read off that chain.
-/

namespace DeviceCatalog

/-! ## Type codes -/

/-- The character that a code writes for a byte order. -/
def ByteOrder.mark : ByteOrder → Char
  | .little => '<'
  | .big => '>'

namespace FieldType

/-- The codes of a type: a letter, behind the byte order if the type is wider than a byte. -/
def codes : FieldType → List (List Char)
  | .int8 => [['b']]
  | .uint8 => [['B']]
  | .int16 o => [[o.mark, 'h']]
  | .uint16 o => [[o.mark, 'H']]
  | .int32 o => [[o.mark, 'i'], [o.mark, 'l']]
  | .uint32 o => [[o.mark, 'I'], [o.mark, 'L']]
  | .float32 o => [[o.mark, 'f']]

/-- No type is missing from the list of types. -/
theorem mem_all (t : FieldType) : t ∈ all := by
  rcases t with _ | _ | o | o | o | o | o <;> (try cases o) <;> decide

/-- A letter that stands for a type makes a code of it, behind the byte order. -/
theorem mem_codes_of_ofLetter? {order : ByteOrder} {c : Char} {t : FieldType} (h : ofLetter? order c = some t) :
    [order.mark, c] ∈ t.codes := by
  unfold ofLetter? at h
  split at h <;> cases h <;> simp [codes]

/-- A code that is read as a type is one of its codes. -/
theorem mem_codes_of_ofCode? {code : String} {t : FieldType} (h : ofCode? code = some t) : code.toList ∈ t.codes := by
  unfold ofCode? at h
  split at h
  · rename_i hcode
    cases h
    simp [hcode, codes]
  · rename_i hcode
    cases h
    simp [hcode, codes]
  · rename_i c hcode
    rw [hcode]
    exact mem_codes_of_ofLetter? h
  · rename_i c hcode
    rw [hcode]
    exact mem_codes_of_ofLetter? h
  · cases h

/-- A code stands for a type exactly when it is one of the codes of that type. -/
theorem ofCode?_eq_some_iff {code : String} {t : FieldType} : ofCode? code = some t ↔ code.toList ∈ t.codes := by
  refine ⟨mem_codes_of_ofCode?, fun h => ?_⟩
  unfold ofCode?
  rcases t with _ | _ | o | o | o | o | o
  case int8 => simp [List.mem_singleton.1 h]
  case uint8 => simp [List.mem_singleton.1 h]
  case int32 | uint32 =>
    simp only [codes, List.mem_cons, List.not_mem_nil, or_false] at h
    rcases h with h | h <;> cases o <;> simp [h, ByteOrder.mark, ofLetter?]
  all_goals
    simp only [codes, List.mem_singleton] at h
    cases o <;> simp [h, ByteOrder.mark, ofLetter?]

theorem width_pos (t : FieldType) : 0 < t.width := by
  cases t <;> simp [width]

end FieldType

/-- The attribute has a place in the response: it has a name and a known type code. -/
def Attribute.HasPlace (a : Attribute) : Prop :=
  a.name ≠ "" ∧ (FieldType.ofCode? a.typeCode).isSome

instance : DecidablePred Attribute.HasPlace := fun _ => inferInstanceAs (Decidable (_ ∧ _))

/-- An attribute is placed when it has a name and a code of a type. -/
theorem Attribute.placedType?_eq_some_iff {a : Attribute} {t : FieldType} :
    a.placedType? = some t ↔ a.name ≠ "" ∧ FieldType.ofCode? a.typeCode = some t := by
  unfold placedType?
  by_cases h : a.name = ""
  · simp [h]
  · simp [h]

/-- An attribute has a place when there is a type for it. -/
theorem Attribute.hasPlace_iff {a : Attribute} : a.HasPlace ↔ ∃ t, a.placedType? = some t := by
  simp only [placedType?_eq_some_iff, exists_and_left, HasPlace, Option.isSome_iff_exists]

namespace PlacedField

/-- The byte belongs to the field. -/
def Covers (f : PlacedField) (p : Nat) : Prop := f.offset ≤ p ∧ p < f.limit

theorem offset_lt_limit (f : PlacedField) : f.offset < f.limit :=
  Nat.lt_add_of_pos_right f.type.width_pos

/-- The fields stand end to end, the first one at the start and nothing behind the stop. -/
def Consecutive (start stop : Nat) : List PlacedField → Prop
  | [] => start = stop
  | f :: fs => f.offset = start ∧ Consecutive f.limit stop fs

/-- Fields end to end take up their widths. -/
theorem Consecutive.stop_eq {start stop : Nat} {fs : List PlacedField} (h : Consecutive start stop fs) :
    stop = start + (fs.map fun f => f.type.width).sum := by
  induction fs generalizing start with
  | nil => exact h.symm
  | cons f fs ih =>
    obtain ⟨hstart, hrest⟩ := h
    have hstop := ih hrest
    rw [List.map_cons, List.sum_cons]
    unfold limit at hstop
    omega

/-- The offset of a field is where the fields before it end. -/
theorem Consecutive.offset_eq {start stop : Nat} {fs : List PlacedField} (h : Consecutive start stop fs) {i : Nat} {f : PlacedField}
    (hf : fs[i]? = some f) : f.offset = start + ((fs.take i).map fun f => f.type.width).sum := by
  induction fs generalizing start i with
  | nil => cases hf
  | cons g fs ih =>
    obtain ⟨hstart, hrest⟩ := h
    cases i with
    | zero =>
      cases hf
      exact hstart
    | succ i =>
      have hoffset := ih hrest hf
      rw [List.take_succ_cons, List.map_cons, List.sum_cons]
      unfold limit at hoffset
      omega

/-- No field reaches out of its place between start and stop. -/
theorem Consecutive.bounds {start stop : Nat} {fs : List PlacedField} (h : Consecutive start stop fs) {f : PlacedField} (hf : f ∈ fs) :
    start ≤ f.offset ∧ f.limit ≤ stop := by
  induction fs generalizing start with
  | nil => cases hf
  | cons g fs ih =>
    obtain ⟨hstart, hrest⟩ := h
    have hstop := hrest.stop_eq
    rcases List.mem_cons.1 hf with rfl | hf
    · omega
    · have hbounds := ih hrest hf
      have hg := g.offset_lt_limit
      omega

/-- The bytes of the first field and those of the others make those of all, wherever they are counted from. -/
theorem Consecutive.range'_append {start stop : Nat} {f : PlacedField} {fs : List PlacedField} (h : Consecutive start stop (f :: fs))
    (q : Nat) :
    List.range' (q + f.offset) f.type.width ++ List.range' (q + f.limit) (stop - f.limit) = List.range' (q + start) (stop - start) := by
  obtain ⟨rfl, hrest⟩ := h
  have hstop := hrest.stop_eq
  have hcount : stop - f.offset = f.type.width + (stop - f.limit) := by
    unfold limit at hstop ⊢
    omega
  rw [hcount, limit, ← Nat.add_assoc, List.range'_append_1]

/-- Every byte between start and stop belongs to exactly one field. -/
theorem Consecutive.existsUnique_covers {start stop : Nat} {fs : List PlacedField} (h : Consecutive start stop fs) {p : Nat}
    (hstart : start ≤ p) (hstop : p < stop) : ∃! i : Nat, ∃ f, fs[i]? = some f ∧ f.Covers p := by
  induction fs generalizing start with
  | nil =>
    have heq : start = stop := h
    omega
  | cons g fs ih =>
    obtain ⟨hoffset, hrest⟩ := h
    by_cases hp : p < g.limit
    · refine ⟨0, ⟨g, rfl, Nat.le_trans (Nat.le_of_eq hoffset) hstart, hp⟩, ?_⟩
      rintro (_ | i) ⟨f, hf, hcovers⟩
      · rfl
      · -- a later field starts behind the first one
        have hbounds := hrest.bounds (List.mem_of_getElem? hf)
        have hlow := hcovers.1
        omega
    · obtain ⟨i, hi, hunique⟩ := ih hrest (Nat.not_lt.1 hp)
      refine ⟨i + 1, hi, ?_⟩
      rintro (_ | j) ⟨f, hf, hcovers⟩
      · cases hf
        exact absurd hcovers.2 hp
      · rw [hunique j ⟨f, hf, hcovers⟩]

end PlacedField

namespace PollLayout

/-- Laying out a schema puts its fields end to end, and the size is where they stop. -/
theorem consecutive_place (deviceKey : String) (start : Nat) (attrs : List Attribute) :
    PlacedField.Consecutive start (place deviceKey start attrs).size (place deviceKey start attrs).fields := by
  induction attrs generalizing start with
  | nil => rfl
  | cons a attrs ih =>
    rw [place]
    split
    · exact ⟨rfl, ih _⟩
    · exact ih _

/-- The placed fields are the attributes that have a place, in the order of the schema. -/
theorem map_attr_fields_place (deviceKey : String) (start : Nat) (attrs : List Attribute) :
    (place deviceKey start attrs).fields.map PlacedField.attr = attrs.filter fun a => a.HasPlace := by
  induction attrs generalizing start with
  | nil => rfl
  | cons a attrs ih =>
    cases h : a.placedType? with
    | some t =>
      have hplace : a.HasPlace := Attribute.hasPlace_iff.2 ⟨t, h⟩
      simp [place, h, hplace, ih]
    | none =>
      have hplace : ¬ a.HasPlace := by simp [Attribute.hasPlace_iff, h]
      simp [place, h, hplace, ih]

/-- The others are reported, in the order of the schema. -/
theorem skipped_place (deviceKey : String) (start : Nat) (attrs : List Attribute) :
    (place deviceKey start attrs).skipped =
      (attrs.filter fun a => ¬ a.HasPlace).map fun a => ⟨deviceKey, a.name, a.typeCode⟩ := by
  induction attrs generalizing start with
  | nil => rfl
  | cons a attrs ih =>
    cases h : a.placedType? with
    | some t =>
      have hplace : a.HasPlace := Attribute.hasPlace_iff.2 ⟨t, h⟩
      simp [place, h, hplace, ih]
    | none =>
      have hplace : ¬ a.HasPlace := by simp [Attribute.hasPlace_iff, h]
      simp [place, h, hplace, ih]

/-- A field has the type of its code. -/
theorem ofCode?_of_mem_fields_place {deviceKey : String} {start : Nat} {attrs : List Attribute} {f : PlacedField}
    (h : f ∈ (place deviceKey start attrs).fields) : FieldType.ofCode? f.attr.typeCode = some f.type := by
  induction attrs generalizing start with
  | nil => cases h
  | cons a attrs ih =>
    rw [place] at h
    split at h
    · rename_i t ht
      rcases List.mem_cons.1 h with rfl | h
      · exact (Attribute.placedType?_eq_some_iff.1 ht).2
      · exact ih h
    · exact ih h

/-- What computing a layout comes to and reports. -/
theorem compute_eq (d : DeviceType) :
    let l := place d.key 0 d.responseSchema
    compute d = ⟨l.skipped.map SkippedField.notice,
      if l.size = d.declaredBytes then .ok l else .error (.sizeMismatch d.key d.declaredBytes l.size)⟩ := by
  intro l
  unfold compute
  simp only [bind, Logged.bind, Logged.notes]
  by_cases h : l.size = d.declaredBytes
  · simp [l, h, pure]
  · simp [l, h, Logged.fail]

/-- A layout keeps the attributes with a name and a known type code and reports the others, both in the order of the schema. The
fields that it keeps tile the response: each begins where those before it end, and every byte below the size belongs to exactly one
of them. Exactly when the size is the declared one the layout is accepted; else the failure names both sizes. -/
theorem compute_tiles_response (d : DeviceType) :
    (∀ code t, FieldType.ofCode? code = some t ↔ code.toList ∈ t.codes) ∧
    ∃ l : PollLayout,
      l.fields.map PlacedField.attr = d.responseSchema.filter (fun a => a.HasPlace) ∧
      (∀ f ∈ l.fields, FieldType.ofCode? f.attr.typeCode = some f.type) ∧
      l.skipped = (d.responseSchema.filter fun a => ¬ a.HasPlace).map (fun a => ⟨d.key, a.name, a.typeCode⟩) ∧
      (∀ (i : Nat) f, l.fields[i]? = some f → f.offset = ((l.fields.take i).map fun f => f.type.width).sum) ∧
      l.size = (l.fields.map fun f => f.type.width).sum ∧
      (∀ p < l.size, ∃! i : Nat, ∃ f, l.fields[i]? = some f ∧ f.offset ≤ p ∧ p < f.offset + f.type.width) ∧
      (∀ f ∈ l.fields, f.offset + f.type.width ≤ l.size) ∧
      compute d = ⟨l.skipped.map SkippedField.notice,
        if l.size = d.declaredBytes then .ok l else .error (.sizeMismatch d.key d.declaredBytes l.size)⟩ := by
  have hchain := consecutive_place d.key 0 d.responseSchema
  refine ⟨fun code t => FieldType.ofCode?_eq_some_iff, place d.key 0 d.responseSchema, map_attr_fields_place _ _ _,
    fun f hf => ofCode?_of_mem_fields_place hf, skipped_place _ _ _, fun i f hf => ?_, ?_, fun p hp => ?_, fun f hf => ?_,
    compute_eq d⟩
  · rw [hchain.offset_eq hf, Nat.zero_add]
  · rw [hchain.stop_eq, Nat.zero_add]
  · exact hchain.existsUnique_covers (Nat.zero_le p) hp
  · exact (hchain.bounds hf).2

/-- A schema with an attribute without a name and one of an unknown type among its fields: the fields stand end to end as if these
were not there. -/
theorem compute_mixed_schema :
    let d : DeviceType := {
      key := "Dev"
      responseSchema :=
        [ { name := "x", typeCode := "<h" }, { name := "", typeCode := "B" }, { name := "q", typeCode := ">q" },
          { name := "t", typeCode := "B" }, { name := "v", typeCode := ">L" } ]
      declaredBytes := 7 }
    ∃ l, (compute d).outcome = .ok l ∧ l.size = 7 ∧ l.skipped.map SkippedField.name = ["", "q"] ∧
      ∃! i : Nat, ∃ f, l.fields[i]? = some f ∧ f.offset ≤ 4 ∧ 4 < f.offset + f.type.width := by
  intro d
  obtain ⟨-, l, -, -, hskipped, -, -, hcovers, -, hcompute⟩ := compute_tiles_response d
  have hok : ∃ l', (compute d).outcome = .ok l' := ⟨_, rfl⟩
  have hsize : l.size = 7 := by
    by_contra hne
    obtain ⟨l', hl'⟩ := hok
    rw [hcompute] at hl'
    simp [d, hne] at hl'
  refine ⟨l, ?_, hsize, ?_, hcovers 4 (by omega)⟩
  · rw [hcompute]
    simp [d, hsize]
  · rw [hskipped]
    decide

end PollLayout

end DeviceCatalog

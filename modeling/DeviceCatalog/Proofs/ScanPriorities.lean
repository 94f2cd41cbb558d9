import DeviceCatalog.Proofs.IntegerLiterals
import DeviceCatalog.Proofs.ScanLists
import DeviceCatalog.Proofs.SingleCatalog

/-!
# Scan priorities

The bucket of a device as its catalog entry asks for it. An entry is read field by field, and no other field looks at the scan priority
(`Entry.exists_fields`), so an entry with a scan priority is the entry without it, put into a bucket (`Entry.decode_object`,
`Entry.decode_array`).
-/

namespace DeviceCatalog

/-! ## Buckets -/

namespace ScanPriority

/-- The bucket of a level that is counted from one. -/
def bucketOf (n : Int) : Nat := (min (max (n - 1) 0) 2).toNat

/-- The bucket of an integer level is the one of its clamped value. -/
theorem index_scanLevel_level (n : Int) : (ScanPriority.level n).scanLevel.index = bucketOf n := by
  unfold scanLevel bucketOf
  dsimp only
  split
  · rename_i h
    have hmax : max (n - 1) 0 = 0 := by omega
    rw [hmax]
    rfl
  · split
    · rename_i h
      rw [h]
      rfl
    · have hmin : min (max (n - 1) 0) 2 = 2 := by omega
      rw [hmin]
      rfl

/-- A greater level never gives an earlier bucket. -/
theorem bucketOf_le_bucketOf {n n' : Int} (h : n ≤ n') : bucketOf n ≤ bucketOf n' := by
  unfold bucketOf
  omega

/-- One less in words of 64 bits; the least word stays what it is. -/
def wordBefore (w : Int64) : Int64 := if w = Int64.minValue then w else w - 1

/-- A word brought into the range of the buckets. -/
def clampWord (w : Int64) : Int64 := if w < 0 then 0 else if 2 < w then 2 else w

/-- One less than a word, as far as words go. -/
theorem toInt_wordBefore (w : Int64) : (wordBefore w).toInt = max (-2 ^ 63) (w.toInt - 1) := by
  have hlow := w.le_toInt
  have hhigh := w.toInt_lt
  unfold wordBefore
  split
  · rename_i hleast
    rw [hleast, Int64.toInt_minValue]
    omega
  · rename_i hmore
    have hne : w.toInt ≠ -2 ^ 63 := fun h => hmore (Int64.toInt_inj.1 (h.trans Int64.toInt_minValue.symm))
    have hone : (1 : Int64).toInt = 1 := rfl
    rw [Int64.toInt_sub, hone, Int.bmod_eq_of_le (by omega) (by omega)]
    omega

/-- A word between the least and the greatest bucket. -/
theorem toInt_clampWord (w : Int64) : (clampWord w).toInt = min (max w.toInt 0) 2 := by
  have hzero : (0 : Int64).toInt = 0 := rfl
  have htwo : (2 : Int64).toInt = 2 := rfl
  simp only [clampWord, Int64.lt_iff_toInt_lt, hzero, htwo]
  split
  · rw [hzero]
    omega
  · split
    · rw [htwo]
      omega
    · omega

/-- Words of 64 bits compute the bucket of a level. -/
theorem toInt_clampWord_wordBefore (w : Int64) : (clampWord (wordBefore w)).toInt = bucketOf w.toInt := by
  rw [toInt_clampWord, toInt_wordBefore, bucketOf]
  omega

end ScanPriority

/-- The bucket that a value asks for as a scan priority; null asks for none. -/
def Json.bucket? : Json → Option Nat
  | .null => none
  | .number (.integer n) => some (ScanPriority.bucketOf n)
  | .string "high" => some 0
  | .string "medium" => some 1
  | _ => some 2

/-- Integers that do not fit a level have the bucket that they would have as one. -/
theorem ScanPriority.map_index_ofJson? (v : Json) : (ofJson? v).map (fun p => p.scanLevel.index) = v.bucket? := by
  cases v with
  | number x =>
    cases x with
    | float x => rfl
    | integer n =>
      have hbound : Nat.pow 2 63 = 2 ^ 63 := rfl
      rw [ofJson?, Json.bucket?, hbound]
      split
      · exact congrArg some (index_scanLevel_level n)
      · rename_i h
        have hlast : bucketOf n = 2 := by
          unfold bucketOf
          omega
        rw [hlast]
        rfl
  | string s =>
    rw [ofJson?, Option.map_some]
    by_cases hhigh : s = "high"
    · subst hhigh
      rfl
    · by_cases hmedium : s = "medium"
      · subst hmedium
        rfl
      · simp [Json.bucket?, scanLevel, hhigh, hmedium, ScanLevel.index]
  | _ => rfl

/-- The bucket of a device, if it has a priority. -/
def DeviceType.bucket? (d : DeviceType) : Option Nat :=
  d.scanLevel?.map ScanLevel.index

/-- A bucket is a pass, by its number. -/
theorem DeviceType.bucket?_eq_some_iff {d : DeviceType} {level : ScanLevel} : d.bucket? = some level.index ↔ d.scanLevel? = some level := by
  have hinjective : ∀ l l' : ScanLevel, l.index = l'.index → l = l' := by
    intro l l'
    cases l <;> cases l' <;> decide
  rw [bucket?, Option.map_eq_some_iff]
  constructor
  · rintro ⟨l, hl, heq⟩
    rw [hl, hinjective l level heq]
  · exact fun h => ⟨level, h, rfl⟩

/-- The first bucket is the most eager pass. -/
theorem DeviceType.bucket?_eq_zero_iff {d : DeviceType} : d.bucket? = some 0 ↔ d.scanLevel? = some .high :=
  @bucket?_eq_some_iff d .high

/-- The second bucket is the middle pass. -/
theorem DeviceType.bucket?_eq_one_iff {d : DeviceType} : d.bucket? = some 1 ↔ d.scanLevel? = some .medium :=
  @bucket?_eq_some_iff d .medium

/-- A device type is in the bucket of the value that its priority was read from. -/
theorem DeviceType.bucket?_eq {d : DeviceType} {v : Option Json} (h : d.scanPriority = v.bind ScanPriority.ofJson?) :
    d.bucket? = v.bind Json.bucket? := by
  rw [bucket?, scanLevel?, h, Option.map_map]
  cases v with
  | none => rfl
  | some v => exact ScanPriority.map_index_ofJson? v

/-- Only an integer that fits a signed word is a level. -/
theorem ScanPriority.ofJson?_eq_level_iff {v : Json} {n : Int} :
    ofJson? v = some (.level n) ↔ v = .number (.integer n) ∧ n < 2 ^ 63 := by
  cases v with
  | number x =>
    cases x with
    | float x => simp [ofJson?]
    | integer n' =>
      have hbound : Nat.pow 2 63 = 2 ^ 63 := rfl
      rw [ofJson?, hbound]
      split
      · rename_i h
        constructor
        · intro heq
          cases heq
          exact ⟨rfl, h⟩
        · rintro ⟨heq, -⟩
          cases heq
          rfl
      · rename_i h
        refine iff_of_false nofun fun heq => ?_
        cases heq.1
        exact h heq.2
  | _ => simp [ofJson?]

/-! ## Fields that do not look at each other -/

/-- Steps that do not look at what is changed can be taken before the change. -/
theorem Logged.foldlM_map {ε ρ β : Type} {step : ρ → β → Logged ε ρ} {g : ρ → ρ} {xs : List β}
    (h : ∀ x ∈ xs, ∀ r, step (g r) x = g <$> step r x) (r : ρ) : xs.foldlM step (g r) = g <$> xs.foldlM step r := by
  induction xs generalizing r with
  | nil => exact (map_pure g r).symm
  | cons x xs ih =>
    obtain ⟨hx, hxs⟩ := List.forall_mem_cons.1 h
    rw [List.foldlM_cons, List.foldlM_cons, hx, map_bind, bind_map_left]
    exact congrArg (step r x >>= ·) (funext (ih hxs))

namespace Shape

variable {ρ : Type}

/-- The field does not look at what is changed. -/
def Field.Ignores (f : Field ρ) (g : ρ → ρ) : Prop :=
  ∀ v r, f.read v (g r) = g <$> f.read v r

/-- A field ignores what its setting does not depend on. -/
theorem ignores_field {α : Type} {name : String} {decode : Decoder α} {store : α → ρ → ρ} {g : ρ → ρ}
    (h : ∀ a r, store a (g r) = g (store a r)) : (field name decode store).Ignores g := by
  intro v r
  simp only [field, h, map_bind, map_pure]

/-- Neither does a member that is not under a given name, if the fields of other names do not. -/
theorem readMember_map {fields : List (Field ρ)} {name : String} {g : ρ → ρ} (h : ∀ f ∈ fields, f.name ≠ name → f.Ignores g)
    {m : String × Json} (hm : m.1 ≠ name) (r : ρ) : readMember fields (g r) m = g <$> readMember fields r m := by
  unfold readMember
  cases hfind : fields.find? fun f => f.name == m.1 with
  | none => exact (map_pure g r).symm
  | some f =>
    have hfound := List.find?_some hfind
    have hname : f.name = m.1 := beq_iff_eq.1 hfound
    exact h f (List.mem_of_find?_eq_some hfind) (hname ▸ hm) m.2 r

/-- A value read by the field at its position. -/
def readItem (r : ρ) (x : Field ρ × Json) : Logged Mismatch ρ :=
  x.1.read x.2 r

/-- A record once it is read, refused if its array was too long. -/
def checkLength (limit length : Nat) (r : ρ) : Logged Mismatch ρ :=
  if limit < length then .fail (.tooManyFields length) else pure r

/-- A record written as an array has its fields in order, one item for each. -/
theorem record_array (expected : Expected) (fields : List (Field ρ)) (defaults : ρ) (items : List Json) :
    record expected fields defaults (.array items) =
      (fields.zip items).foldlM readItem defaults >>= checkLength fields.length items.length := rfl

/-- Fields that are read by their position do not look at what is changed if none of them does, and neither does the check behind them. -/
theorem foldlM_readItem_map {steps : List (Field ρ × Json)} {g : ρ → ρ} (h : ∀ x ∈ steps, x.1.Ignores g) (limit length : Nat) (r : ρ) :
    (steps.foldlM readItem (g r) >>= checkLength limit length) = g <$> (steps.foldlM readItem r >>= checkLength limit length) := by
  rw [Logged.foldlM_map (fun x hx r => h x hx x.2 r), bind_map_left, map_bind]
  refine congrArg (_ >>= ·) (funext fun r => ?_)
  unfold checkLength
  split
  · rfl
  · exact (map_pure _ r).symm

end Shape

/-! ## The scan priority of an entry -/

namespace Entry

/-- The entry with another scan priority. -/
def withPriority (p : Option ScanPriority) (e : Entry) : Entry := { e with scanPriority := p }

/-- The field of the scan priority. -/
def priorityField : Shape.Field Entry :=
  Shape.field "scanPriority" (fun v => pure (ScanPriority.ofJson? v)) withPriority

/-- Whatever its value is, the field of the scan priority is read. -/
theorem read_priorityField (v : Json) (e : Entry) : priorityField.read v e = pure (withPriority (ScanPriority.ofJson? v) e) :=
  pure_bind (ScanPriority.ofJson? v) fun p => pure (withPriority p e)

/-- The scan priority is the sixth field of an entry, and no other field looks at it. -/
theorem exists_fields : ∃ front back : List (Shape.Field Entry), front.length = 5 ∧
    Entry.decode = Shape.record .deviceEntry (front ++ priorityField :: back) {} ∧
    ∀ f ∈ front ++ back, f.name ≠ "scanPriority" ∧ ∀ p, f.Ignores (withPriority p) := by
  refine ⟨[_, _, _, _, _], [_], rfl, rfl, ?_⟩
  intro f hf
  simp only [List.cons_append, List.nil_append, List.mem_cons, List.not_mem_nil, or_false] at hf
  rcases hf with rfl | rfl | rfl | rfl | rfl | rfl
  all_goals exact ⟨by decide, fun p => Shape.ignores_field fun _ _ => rfl⟩

/-- Reading an object: a member under the name of the scan priority sets it, and the others do not look at it. -/
theorem exists_readMember : ∃ fields : List (Shape.Field Entry),
    (∀ ms, Entry.decode (.object ms) = ms.foldlM (Shape.readMember fields) {}) ∧
    (∀ e v, Shape.readMember fields e ("scanPriority", v) = pure (withPriority (ScanPriority.ofJson? v) e)) ∧
    ∀ ms : List (String × Json), "scanPriority" ∉ ms.map Prod.fst → ∀ p e,
      ms.foldlM (Shape.readMember fields) (withPriority p e) = withPriority p <$> ms.foldlM (Shape.readMember fields) e := by
  obtain ⟨front, back, -, hdecode, hothers⟩ := exists_fields
  refine ⟨front ++ priorityField :: back, fun ms => congrFun hdecode (.object ms), fun e v => ?_, fun ms hms p e => ?_⟩
  · have hfront : front.find? (fun f => f.name == "scanPriority") = none := by
      refine List.find?_eq_none.2 fun f hf heq => ?_
      exact (hothers f (List.mem_append_left _ hf)).1 (beq_iff_eq.1 heq)
    have hfind : (front ++ priorityField :: back).find? (fun f => f.name == "scanPriority") = some priorityField := by
      rw [List.find?_append, hfront, Option.none_or]
      exact List.find?_cons_of_pos rfl
    rw [Shape.readMember, hfind]
    exact read_priorityField v e
  · have hignores : ∀ f ∈ front ++ priorityField :: back, f.name ≠ "scanPriority" → f.Ignores (withPriority p) := by
      intro f hf hname
      rw [List.mem_append, List.mem_cons] at hf
      rcases hf with hf | rfl | hf
      · exact (hothers f (List.mem_append_left _ hf)).2 p
      · exact absurd rfl hname
      · exact (hothers f (List.mem_append_right _ hf)).2 p
    refine Logged.foldlM_map (fun m hm => Shape.readMember_map hignores fun hname => hms ?_) e
    exact hname ▸ List.mem_map_of_mem hm

/-- An object with a scan priority decodes as the object without it, with that priority. -/
theorem decode_object {before after : List (String × Json)} (h : "scanPriority" ∉ after.map Prod.fst) (v : Json) :
    Entry.decode (.object (before ++ ("scanPriority", v) :: after)) =
      withPriority (ScanPriority.ofJson? v) <$> Entry.decode (.object (before ++ after)) := by
  obtain ⟨fields, hdecode, hset, hothers⟩ := exists_readMember
  rw [hdecode, hdecode, List.foldlM_append, List.foldlM_append, map_bind]
  refine congrArg (_ >>= ·) (funext fun e => ?_)
  rw [List.foldlM_cons, hset, pure_bind, hothers after h]

/-- An object without a scan priority decodes as an entry without one. -/
theorem decode_object_of_absent {ms : List (String × Json)} (h : "scanPriority" ∉ ms.map Prod.fst) :
    Entry.decode (.object ms) = withPriority none <$> Entry.decode (.object ms) := by
  obtain ⟨fields, hdecode, -, hothers⟩ := exists_readMember
  rw [hdecode]
  exact hothers ms h none {}

/-- Behind its fifth item an array goes on with its scan priority. -/
theorem exists_decode_array {before : List Json} (h : before.length = 5) (after : List Json) :
    ∃ x : Logged Mismatch Entry, ∀ v, Entry.decode (.array (before ++ v :: after)) = withPriority (ScanPriority.ofJson? v) <$> x := by
  obtain ⟨front, back, hfront, hdecode, hothers⟩ := exists_fields
  let fields := front ++ priorityField :: back
  let length := before.length + (after.length + 1)
  refine ⟨(front.zip before).foldlM Shape.readItem {} >>= fun e =>
    (back.zip after).foldlM Shape.readItem e >>= Shape.checkLength fields.length length, fun v => ?_⟩
  have hzip : fields.zip (before ++ v :: after) = front.zip before ++ (priorityField, v) :: back.zip after :=
    List.zip_append (hfront.trans h.symm)
  have hlength : (before ++ v :: after).length = length := by rw [List.length_append, List.length_cons]
  have hread : ∀ e, Shape.readItem e (priorityField, v) = pure (withPriority (ScanPriority.ofJson? v) e) := read_priorityField v
  rw [hdecode, Shape.record_array, hzip, hlength, List.foldlM_append, bind_assoc, map_bind]
  refine congrArg (_ >>= ·) (funext fun e => ?_)
  rw [List.foldlM_cons, hread, pure_bind]
  exact Shape.foldlM_readItem_map (fun x hx => (hothers x.1 (List.mem_append_right _ (List.of_mem_zip hx).1)).2 _) _ _ e

/-- Nothing else of an entry depends on the scan priority that its array has. -/
theorem decode_array {before after : List Json} (h : before.length = 5) (v w : Json) :
    Entry.decode (.array (before ++ v :: after)) =
      withPriority (ScanPriority.ofJson? v) <$> Entry.decode (.array (before ++ w :: after)) := by
  obtain ⟨x, hx⟩ := exists_decode_array h after
  rw [hx, hx, Functor.map_map]
  rfl

/-- An array that ends before its sixth item decodes as an entry without a scan priority. -/
theorem decode_array_of_absent {items : List Json} (h : items.length ≤ 5) :
    Entry.decode (.array items) = withPriority none <$> Entry.decode (.array items) := by
  obtain ⟨front, back, hfront, hdecode, hothers⟩ := exists_fields
  have hzip : ∀ x ∈ (front ++ priorityField :: back).zip items, x.1 ∈ front := by
    intro x hx
    obtain ⟨i, hi, rfl⟩ := List.mem_iff_getElem.1 hx
    have hlt : i < front.length := by
      rw [List.length_zip] at hi
      omega
    rw [List.getElem_zip, List.getElem_append_left hlt]
    exact List.getElem_mem hlt
  rw [hdecode, Shape.record_array]
  exact Shape.foldlM_readItem_map (fun x hx => (hothers x.1 (List.mem_append_left _ (hzip x hx))).2 none) _ _ {}

/-- What a value gives as the scan priority of an entry: its member of that name, or its sixth item. -/
def priorityValue? : Json → Option Json
  | .array items => items[5]?
  | v => v.member? "scanPriority"

theorem scanPriority_of_map {x : Logged Mismatch Entry} {p : Option ScanPriority} {e : Entry}
    (h : (withPriority p <$> x).outcome = .ok e) : e.scanPriority = p := by
  rw [Logged.outcome_map] at h
  obtain ⟨_, -, rfl⟩ := Outcome.map_eq_ok_iff.1 h
  rfl

/-- An entry that was written as an array has the scan priority of its sixth item. -/
theorem scanPriority_of_decode_array {items : List Json} {e : Entry} (h : (Entry.decode (.array items)).outcome = .ok e) :
    e.scanPriority = items[5]?.bind ScanPriority.ofJson? := by
  cases hitem : items[5]? with
  | none =>
    rw [decode_array_of_absent (List.getElem?_eq_none_iff.1 hitem)] at h
    exact scanPriority_of_map h
  | some w =>
    obtain ⟨hlt, hw⟩ := List.getElem?_eq_some_iff.1 hitem
    have hsplit : items = items.take 5 ++ w :: items.drop 6 := by
      rw [← hw, List.getElem_cons_drop, List.take_append_drop]
    have hdecode : Entry.decode (.array items) = withPriority (ScanPriority.ofJson? w) <$> Entry.decode (.array items) := by
      have hsame := @decode_array (items.take 5) (items.drop 6) (List.length_take_of_le (Nat.le_of_lt hlt)) w w
      rwa [← hsplit] at hsame
    rw [hdecode] at h
    exact scanPriority_of_map h

/-- An entry that was written as an object has the scan priority of the member of that name. -/
theorem scanPriority_of_decode_object {ms : List (String × Json)} {e : Entry} (hnodup : (ms.map Prod.fst).Nodup)
    (h : (Entry.decode (.object ms)).outcome = .ok e) : e.scanPriority = (ms.lookup "scanPriority").bind ScanPriority.ofJson? := by
  cases hmember : ms.lookup "scanPriority" with
  | none =>
    have habsent : "scanPriority" ∉ ms.map Prod.fst := by
      intro hmem
      obtain ⟨m, hm, hkey⟩ := List.mem_map.1 hmem
      have hne := List.lookup_eq_none_iff.1 hmember m hm
      rw [hkey] at hne
      cases hne
    rw [decode_object_of_absent habsent] at h
    exact scanPriority_of_map h
  | some w =>
    obtain ⟨before, after, rfl, -⟩ := List.lookup_eq_some_iff.1 hmember
    have hafter : "scanPriority" ∉ after.map Prod.fst := by
      rw [List.map_append, List.map_cons] at hnodup
      exact (List.nodup_cons.1 (List.nodup_append.1 hnodup).2.1).1
    rw [decode_object hafter] at h
    exact scanPriority_of_map h

/-- An entry has the scan priority that it was written with. -/
theorem scanPriority_of_decode {v : Json} {e : Entry} (hkeys : v.KeysDistinct) (h : (Entry.decode v).outcome = .ok e) :
    e.scanPriority = (priorityValue? v).bind ScanPriority.ofJson? := by
  cases v with
  | array items => exact scanPriority_of_decode_array h
  | object ms => exact scanPriority_of_decode_object (Json.keysDistinct_object_iff.1 hkeys).1 h
  | _ => cases h

end Entry

/-! ## From a catalog to its buckets -/

theorem Json.IntegersFit.priorityValue? {v w : Json} (h : v.IntegersFit) (hw : Entry.priorityValue? v = some w) : w.IntegersFit := by
  cases v with
  | array items => exact h.item hw
  | _ => exact h.member? hw

/-- The members of `devTypes`, if there are any. -/
def Json.entries (root : Json) : List (String × Json) :=
  (root.member? "devTypes").elim [] Json.members

/-- A level of the device is a word of 64 bits, and words of 64 bits compute the bucket of the device from it. -/
def DeviceType.LevelIsWord (d : DeviceType) : Prop :=
  ∀ n, d.scanPriority = some (.level n) →
    ∃ w : Int64, w.toInt = n ∧ d.bucket? = some (ScanPriority.clampWord (ScanPriority.wordBefore w)).toInt.toNat

/-- The device has the bucket that a value asks for as its scan priority, and if that is a level then words of 64 bits compute it. -/
def DeviceType.InBucketOf (d : DeviceType) (v : Json) : Prop :=
  d.bucket? = (Entry.priorityValue? v).bind Json.bucket? ∧ d.LevelIsWord

/-- A device type is in the bucket that its entry asks for. -/
theorem DeviceType.inBucketOf_of_resolves {d : DeviceType} {e : Entry} {key : String} {v : Json} (hkeys : v.KeysDistinct)
    (hfit : v.IntegersFit) (he : (Entry.decode v).outcome = .ok e) (hd : e.Resolves key d) : d.InBucketOf v := by
  obtain ⟨addresses, response, -, -, rfl⟩ := hd
  have hpriority : (e.toDevice key addresses response).scanPriority = (Entry.priorityValue? v).bind ScanPriority.ofJson? :=
    Entry.scanPriority_of_decode hkeys he
  have hbucket := DeviceType.bucket?_eq hpriority
  refine ⟨hbucket, fun n hn => ?_⟩
  rw [hpriority] at hn
  obtain ⟨w, hw, hlevel⟩ := Option.bind_eq_some_iff.1 hn
  obtain ⟨rfl, hhigh⟩ := ScanPriority.ofJson?_eq_level_iff.1 hlevel
  have hlow : -2 ^ 63 ≤ n := by
    cases hfit.priorityValue? hw with
    | number h => exact h.1
  have hword := Int64.toInt_ofInt_of_le hlow hhigh
  refine ⟨Int64.ofInt n, hword, ?_⟩
  rw [hbucket, hw, ScanPriority.toInt_clampWord_wordBefore, hword]
  rfl

namespace Catalog

/-- The entries of a catalog are those of its text, with distinct keys and integers that fit. -/
theorem entries_of_ofText {p : Path} {text : String} {catalog : Catalog} (h : (ofText p text).outcome = .ok catalog) :
    ∃ root, Json.parse text = .ok root ∧ Decodes root.entries catalog ∧ ∀ m ∈ root.entries, m.2.KeysDistinct ∧ m.2.IntegersFit := by
  have hholds : Holds (fun _ => .ok text) p catalog := outcome_read_eq_ok_iff.1 h
  obtain ⟨_, root, htext, hroot, ⟨hnone, rfl⟩ | ⟨members, hmembers, hdecodes⟩⟩ := hholds
  · cases htext
    have hentries : root.entries = [] := by rw [Json.entries, hnone]; rfl
    refine ⟨root, hroot, ?_, ?_⟩
    · rw [hentries]
      exact .nil
    · rw [hentries]
      exact nofun
  · cases htext
    have hentries : root.entries = members := by rw [Json.entries, hmembers]; rfl
    rw [← hentries] at hdecodes hmembers
    refine ⟨root, hroot, hdecodes, fun m hm => ⟨?_, ?_⟩⟩
    · exact (Json.keysDistinct_object_iff.1 ((Json.keysDistinct_of_parse hroot).member? hmembers)).2 m hm
    · cases (Json.integersFit_of_parse hroot).member? hmembers with
      | object h => exact h m hm

/-- How the scan priority of an entry decides where the addresses of its device are scanned, from the text of the catalog to the lists. -/
structure PriorityDecidesBucket : Prop where
  /-- What the reader keeps as an integer is the decimal text of one that fits 64 bits, signed or unsigned. -/
  integers : ∀ (depth : Nat) (cs rest : List Char) (n : Int), Json.readValue depth cs = .ok (.number (.integer n), rest) ↔
    (-2 ^ 63 ≤ n ∧ n < 2 ^ 64) ∧ Json.EndsInteger rest ∧
      ∃ blanks, (∀ b ∈ blanks, Json.isBlank b = true) ∧ cs = blanks ++ (Text.signedDecimal n).toList ++ rest
  /-- Every entry of a catalog that is read becomes a device in the bucket that the entry asks for: for an integer its distance to the first
  level, brought into the range of the buckets, which is what words of 64 bits compute for a level; for a null none. -/
  buckets : ∀ (p : Path) (text : String) (catalog : Catalog), (ofText p text).outcome = .ok catalog → ∃ root, Json.parse text = .ok root ∧
    List.Forall₂ (fun m x => x.1 = m.1 ∧ ∀ source d, (x.2.resolve x.1 source).outcome = .ok d → d.InBucketOf m.2) root.entries catalog
  /-- Whatever an entry asks for, it is no reason to refuse it. -/
  accepted : ∀ (key : String) (source : Path) (v : Json), ∃ e d, (Entry.decode (.object [("scanPriority", v)])).outcome = .ok e ∧
    (e.resolve key source).outcome = .ok d ∧ d.bucket? = v.bucket?
  /-- No other part of an entry depends on it, and a null is as if it were not there. -/
  object : ∀ (before after : List (String × Json)) (v : Json), "scanPriority" ∉ (before ++ after).map Prod.fst →
    Entry.decode (.object (before ++ ("scanPriority", v) :: after)) =
      Entry.withPriority (ScanPriority.ofJson? v) <$> Entry.decode (.object (before ++ after)) ∧
    Entry.decode (.object (before ++ ("scanPriority", .null) :: after)) = Entry.decode (.object (before ++ after))
  /-- The sixth item of an entry that is an array is its scan priority, and no other part depends on it. -/
  array : ∀ (before after : List Json) (v w : Json), before.length = 5 →
    Entry.decode (.array (before ++ v :: after)) =
      Entry.withPriority (ScanPriority.ofJson? v) <$> Entry.decode (.array (before ++ w :: after))
  /-- The device of a greater integer has no smaller bucket. -/
  monotone : ∀ (d d' : DeviceType) (n n' : Int), d.scanPriority = ScanPriority.ofJson? (.number (.integer n)) →
    d'.scanPriority = ScanPriority.ofJson? (.number (.integer n')) → n ≤ n' →
    ∃ b b', d.bucket? = some b ∧ d'.bucket? = some b' ∧ b ≤ b'
  /-- The first addresses in the first bucket are scanned most eagerly. -/
  high : ∀ (devices : List DeviceType) (a : Address),
    a ∈ (ScanLists.classify devices).high ↔ ∃ d ∈ devices, d.bucket? = some 0 ∧ d.addresses.head? = some a
  /-- Next come the other addresses in the first bucket and those in the second one. -/
  medium : ∀ (devices : List DeviceType) (a : Address),
    a ∈ (ScanLists.classify devices).medium ↔ a ∉ (ScanLists.classify devices).high ∧
      ((∃ d ∈ devices, d.bucket? = some 0 ∧ a ∈ d.addresses.tail) ∨ ∃ d ∈ devices, d.bucket? = some 1 ∧ a ∈ d.addresses)
  /-- All other addresses of the window are scanned last. -/
  low : ∀ (devices : List DeviceType) (a : Address),
    a ∈ (ScanLists.classify devices).low ↔
      (0x04 ≤ a ∧ a ≤ 0x77) ∧ a ∉ (ScanLists.classify devices).high ∧ a ∉ (ScanLists.classify devices).medium

/-- The scan priority of an entry decides the bucket of its device by its distance to the first level, and the bucket decides where the
addresses of the device are scanned. -/
theorem scan_priority_decides_bucket : PriorityDecidesBucket where
  integers := fun _ _ _ _ => Json.readValue_integer_iff
  buckets := by
    intro p text catalog h
    obtain ⟨root, hroot, hdecodes, hmembers⟩ := entries_of_ofText h
    refine ⟨root, hroot, ((List.forall₂_and_left _ _).2 ⟨hmembers, hdecodes⟩).imp ?_⟩
    rintro m x ⟨⟨hkeys, hfit⟩, hkey, he⟩
    exact ⟨hkey, fun source d hd => DeviceType.inBucketOf_of_resolves hkeys hfit he (Entry.outcome_resolve_eq_ok_iff.1 hd)⟩
  accepted := by
    intro key source v
    have hdecode := @Entry.decode_object [] [] List.not_mem_nil v
    have hpriority : ((Entry.withPriority (ScanPriority.ofJson? v) {}).toDevice key [] {}).scanPriority = ScanPriority.ofJson? v := rfl
    exact ⟨Entry.withPriority (ScanPriority.ofJson? v) {}, _, congrArg Logged.outcome hdecode, rfl, @DeviceType.bucket?_eq _ (some v) hpriority⟩
  object := by
    intro before after v habsent
    have hafter : "scanPriority" ∉ after.map Prod.fst := by
      rw [List.map_append, List.mem_append, not_or] at habsent
      exact habsent.2
    refine ⟨Entry.decode_object hafter v, ?_⟩
    rw [Entry.decode_object hafter]
    exact (Entry.decode_object_of_absent habsent).symm
  array := fun before after v w hlength => Entry.decode_array hlength v w
  monotone := by
    intro d d' n n' hd hd' hle
    have hinteger : ∀ (d : DeviceType) (n : Int), d.scanPriority = ScanPriority.ofJson? (.number (.integer n)) →
        d.bucket? = some (ScanPriority.bucketOf n) := fun d n hd => @DeviceType.bucket?_eq d (some (.number (.integer n))) hd
    exact ⟨_, _, hinteger d n hd, hinteger d' n' hd', ScanPriority.bucketOf_le_bucketOf hle⟩
  high := by
    intro devices a
    simp only [DeviceType.bucket?_eq_zero_iff]
    exact ScanLists.mem_high_classify devices a
  medium := by
    intro devices a
    simp only [DeviceType.bucket?_eq_zero_iff, DeviceType.bucket?_eq_one_iff]
    rw [ScanLists.mem_medium_classify]
    simp only [DeviceType.ClaimsSecond, and_or_left, exists_or]
  low := ScanLists.mem_low_classify

/-- The least integer that is no level any more: its device is in the last bucket. -/
theorem scan_priority_decides_bucket_beyond_levels :
    let text := "\x7b\"devTypes\":\x7b\"A\":\x7b\"scanPriority\":9223372036854775808\x7d\x7d\x7d"
    let d : DeviceType := { key := "A", scanPriority := some (.other (.number (.integer 9223372036854775808))) }
    (parse text).outcome = .ok [d] ∧ d.bucket? = some 2 := by
  intro text d
  have hroot : Json.parse text =
      .ok (.object [("devTypes", .object [("A", .object [("scanPriority", .number (.integer 9223372036854775808))])])]) := by
    decide +kernel
  let e : Entry := { scanPriority := d.scanPriority }
  have hcatalog : (ofText inMemory text).outcome = .ok [("A", e)] := by
    unfold ofText
    rw [hroot]
    rfl
  have hd : (e.resolve "A" inMemory).outcome = .ok d := rfl
  obtain ⟨root, hroot', hentries⟩ := scan_priority_decides_bucket.buckets inMemory text _ hcatalog
  cases hroot.symm.trans hroot'
  obtain ⟨⟨-, hentry⟩, -⟩ := List.forall₂_cons.1 hentries
  refine ⟨?_, (hentry inMemory d hd).1⟩
  rw [outcome_parse, hcatalog]
  rfl

end Catalog

end DeviceCatalog

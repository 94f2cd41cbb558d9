import DeviceCatalog.ScanLists
import Mathlib.Data.List.Basic

/-!
# Scan lists: the most eager claim decides

Every device claims addresses for a pass, and an address is scanned in the pass of its most eager claim. The buckets collect the
claims one device after the other (`mem_high_claim`, `mem_medium_claim`, carried along the catalog by `mem_foldl_claim`), then
every bucket loses what the ones before it hold (`mem_reduce_low`: losing what is left of the second bucket is as good as losing
all of it).
-/

namespace DeviceCatalog

/-- The device claims the address for the first pass: it is eager and the address is its primary one. -/
def DeviceType.ClaimsFirst (d : DeviceType) (a : Address) : Prop :=
  d.scanLevel? = some .high ∧ d.addresses.head? = some a

/-- The device claims the address for the second pass: it is eager and the address is not its first one, or it is of medium
priority. -/
def DeviceType.ClaimsSecond (d : DeviceType) (a : Address) : Prop :=
  d.scanLevel? = some .high ∧ a ∈ d.addresses.tail ∨ d.scanLevel? = some .medium ∧ a ∈ d.addresses

namespace Buckets

@[simp] theorem high_withLow (b : Buckets) (bucket : Bucket) : (b.withLow bucket).high = b.high := rfl

@[simp] theorem medium_withLow (b : Buckets) (bucket : Bucket) : (b.withLow bucket).medium = b.medium := rfl

@[simp] theorem low_withLow (b : Buckets) (bucket : Bucket) : (b.withLow bucket).low = bucket := rfl

@[simp] theorem high_reduce (b : Buckets) : b.reduce.high = b.high := rfl

@[simp] theorem medium_reduce (b : Buckets) : b.reduce.medium = b.medium.without b.high := rfl

/-! ## Collecting -/

/-- One more device adds its primary address to the first bucket, if it is eager, and nothing else. -/
theorem mem_high_claim (b : Buckets) (d : DeviceType) (a : Address) :
    a ∈ (b.claim d).high ↔ a ∈ b.high ∨ d.ClaimsFirst a := by
  unfold claim DeviceType.ClaimsFirst
  rcases d.scanLevel? with _ | level
  · simp
  · cases level with
    | high =>
      rcases d.addresses with _ | ⟨primary, others⟩
      · simp
      · simp [or_comm]
    | medium => simp
    | low => simp

/-- One more device adds what it claims for the second pass to the second bucket. -/
theorem mem_medium_claim (b : Buckets) (d : DeviceType) (a : Address) :
    a ∈ (b.claim d).medium ↔ a ∈ b.medium ∨ d.ClaimsSecond a := by
  unfold claim DeviceType.ClaimsSecond
  rcases d.scanLevel? with _ | level
  · simp
  · cases level with
    | high =>
      rcases d.addresses with _ | ⟨primary, others⟩
      · simp
      · simp
    | medium => simp
    | low => simp

/-- What the first two buckets hold after a run along the catalog. -/
theorem mem_foldl_claim (devices : List DeviceType) (b : Buckets) (a : Address) :
    (a ∈ (devices.foldl claim b).high ↔ a ∈ b.high ∨ ∃ d ∈ devices, d.ClaimsFirst a) ∧
      (a ∈ (devices.foldl claim b).medium ↔ a ∈ b.medium ∨ ∃ d ∈ devices, d.ClaimsSecond a) := by
  induction devices generalizing b with
  | nil => simp
  | cons d devices ih =>
    obtain ⟨hhigh, hmedium⟩ := ih (b.claim d)
    rw [List.foldl_cons, hhigh, hmedium, mem_high_claim, mem_medium_claim]
    simp [or_assoc]

/-! ## Reducing -/

/-- A bucket without an earlier one holds what only it holds. -/
theorem mem_without (bucket earlier : Bucket) (a : Address) :
    a ∈ bucket.without earlier ↔ a ∈ bucket ∧ a ∉ earlier := by
  rw [Bucket.without, Std.TreeSet.mem_filter]
  simp only [Std.TreeSet.get_eq, exists_prop, Bool.not_eq_true', ← Std.TreeSet.contains_iff_mem, Bool.not_eq_true]

/-- The last bucket loses what was claimed for an earlier pass: an address that the second bucket lost before is in the first. -/
theorem mem_reduce_low (b : Buckets) (a : Address) :
    a ∈ b.reduce.low ↔ a ∈ b.low ∧ a ∉ b.high ∧ a ∉ b.medium := by
  simp only [reduce, mem_without]
  tauto

end Buckets

namespace Address

theorem mem_all (a : Address) : a ∈ all := by
  refine List.mem_map.2 ⟨a.toNat, List.mem_range.2 a.toNat_lt, ?_⟩
  exact UInt8.ofNat_toNat

theorem mem_window (a : Address) : a ∈ window ↔ 0x04 ≤ a ∧ a ≤ 0x77 := by
  rw [window, List.mem_filter, decide_eq_true_iff]
  exact and_iff_right (mem_all a)

end Address

theorem Bucket.mem_window (a : Address) : a ∈ Bucket.window ↔ 0x04 ≤ a ∧ a ≤ 0x77 := by
  rw [Bucket.window, Std.TreeSet.mem_ofList, List.contains_iff_mem, Address.mem_window]

namespace ScanLists

@[simp] theorem high_ofBuckets (b : Buckets) : (ofBuckets b).high = b.high.toList := rfl

@[simp] theorem medium_ofBuckets (b : Buckets) : (ofBuckets b).medium = b.medium.toList := rfl

@[simp] theorem low_ofBuckets (b : Buckets) : (ofBuckets b).low = b.low.toList := rfl

/-! ## The lists -/

/-- The first list holds the primary addresses of the eager device types. -/
theorem mem_high_classify (devices : List DeviceType) (a : Address) :
    a ∈ (classify devices).high ↔ ∃ d ∈ devices, d.ClaimsFirst a := by
  rw [classify, high_ofBuckets, Std.TreeSet.mem_toList, Buckets.high_reduce, Buckets.high_withLow,
    (Buckets.mem_foldl_claim devices {} a).1]
  exact or_iff_right Std.TreeSet.not_mem_emptyc

/-- The second list holds what is claimed for the second pass and is not on the first one. -/
theorem mem_medium_classify (devices : List DeviceType) (a : Address) :
    a ∈ (classify devices).medium ↔ a ∉ (classify devices).high ∧ ∃ d ∈ devices, d.ClaimsSecond a := by
  rw [mem_high_classify, classify, medium_ofBuckets, Std.TreeSet.mem_toList, Buckets.medium_reduce, Buckets.mem_without,
    Buckets.high_withLow, Buckets.medium_withLow, (Buckets.mem_foldl_claim devices {} a).1,
    (Buckets.mem_foldl_claim devices {} a).2, and_comm]
  simp only [Std.TreeSet.not_mem_emptyc, false_or]

/-- The third list holds what is left of the window. -/
theorem mem_low_classify (devices : List DeviceType) (a : Address) :
    a ∈ (classify devices).low ↔
      (0x04 ≤ a ∧ a ≤ 0x77) ∧ a ∉ (classify devices).high ∧ a ∉ (classify devices).medium := by
  have hlow : a ∈ (classify devices).low ↔
      a ∈ Bucket.window ∧ a ∉ (devices.foldl Buckets.claim {}).high ∧ a ∉ (devices.foldl Buckets.claim {}).medium := by
    rw [classify, low_ofBuckets, Std.TreeSet.mem_toList, Buckets.mem_reduce_low, Buckets.high_withLow,
      Buckets.medium_withLow, Buckets.low_withLow]
  have hfold := Buckets.mem_foldl_claim devices {} a
  rw [hlow, Bucket.mem_window, hfold.1, hfold.2, mem_medium_classify, mem_high_classify]
  simp only [Std.TreeSet.not_mem_emptyc, false_or]
  constructor
  · intro h
    obtain ⟨hwindow, hfirst, hsecond⟩ := h
    exact ⟨hwindow, hfirst, fun h => hsecond h.2⟩
  · intro h
    obtain ⟨hwindow, hfirst, hsecond⟩ := h
    exact ⟨hwindow, hfirst, fun h => hsecond ⟨hfirst, h⟩⟩

/-- Every list of some buckets is one of them in rising order. -/
theorem exists_bucket (b : Buckets) (level : ScanLevel) : ∃ bucket : Bucket, (ofBuckets b).list level = bucket.toList := by
  cases level
  · exact ⟨b.high, rfl⟩
  · exact ⟨b.medium, rfl⟩
  · exact ⟨b.low, rfl⟩

/-- Every list is strictly rising. -/
theorem pairwise_list (devices : List DeviceType) (level : ScanLevel) :
    ((classify devices).list level).Pairwise (· < ·) := by
  obtain ⟨bucket, h⟩ := exists_bucket ((devices.foldl Buckets.claim {}).withLow .window).reduce level
  rw [classify, h]
  exact bucket.ordered_toList.imp fun hlt => Std.compare_eq_lt.1 hlt

/-- No address is in two lists. -/
theorem list_disjoint (devices : List DeviceType) {level level' : ScanLevel} {a : Address}
    (h : a ∈ (classify devices).list level) (h' : a ∈ (classify devices).list level') : level = level' := by
  have hmedium := mem_medium_classify devices a
  have hlow := mem_low_classify devices a
  cases level with
  | high =>
    cases level' with
    | high => rfl
    | medium => exact absurd h (hmedium.1 h').1
    | low => exact absurd h (hlow.1 h').2.1
  | medium =>
    cases level' with
    | high => exact absurd h' (hmedium.1 h).1
    | medium => rfl
    | low => exact absurd h (hlow.1 h').2.2
  | low =>
    cases level' with
    | high => exact absurd h' (hlow.1 h).2.1
    | medium => exact absurd h' (hlow.1 h).2.2
    | low => rfl

/-- Two lists of buckets with the same addresses are the same list. -/
theorem list_eq_of_mem_iff (devices devices' : List DeviceType) (level : ScanLevel)
    (h : ∀ a, a ∈ (classify devices).list level ↔ a ∈ (classify devices').list level) :
    (classify devices).list level = (classify devices').list level := by
  obtain ⟨bucket, hb⟩ := exists_bucket ((devices.foldl Buckets.claim {}).withLow .window).reduce level
  obtain ⟨bucket', hb'⟩ := exists_bucket ((devices'.foldl Buckets.claim {}).withLow .window).reduce level
  simp only [classify, hb, hb', Std.TreeSet.mem_toList] at h ⊢
  exact (Std.TreeSet.Equiv.of_forall_mem_iff h).toList_eq

/-- The lists do not depend on the order of the device types. -/
theorem classify_eq_of_perm {devices devices' : List DeviceType} (h : devices'.Perm devices) :
    classify devices' = classify devices := by
  have hhigh : ∀ a, a ∈ (classify devices').high ↔ a ∈ (classify devices).high := by
    intro a
    simp only [mem_high_classify, h.mem_iff]
  have hmedium : ∀ a, a ∈ (classify devices').medium ↔ a ∈ (classify devices).medium := by
    intro a
    rw [mem_medium_classify, mem_medium_classify, hhigh a]
    simp only [h.mem_iff]
  have hlow : ∀ a, a ∈ (classify devices').low ↔ a ∈ (classify devices).low := by
    intro a
    rw [mem_low_classify, mem_low_classify, hhigh a, hmedium a]
  apply ScanLists.ext
  · exact list_eq_of_mem_iff devices' devices .high hhigh
  · exact list_eq_of_mem_iff devices' devices .medium hmedium
  · exact list_eq_of_mem_iff devices' devices .low hlow

/-- An address is scanned in the pass of its most eager claim: in the first one if it is the primary address of an eager device,
else in the second one if an eager device has it behind its first address or a device of medium priority has it at all, else in the
last one if it lies in the scanned window. The lists are strictly rising, so they have no address in common, every address of the
window is in exactly one of them, and the order of the device types does not matter. -/
theorem classify_by_most_eager_claim (devices : List DeviceType) :
    let s := classify devices
    (∀ a, a ∈ s.high ↔ ∃ d ∈ devices, d.scanLevel? = some .high ∧ d.addresses.head? = some a) ∧
    (∀ a, a ∈ s.medium ↔ a ∉ s.high ∧
      ((∃ d ∈ devices, d.scanLevel? = some .high ∧ a ∈ d.addresses.tail) ∨
        ∃ d ∈ devices, d.scanLevel? = some .medium ∧ a ∈ d.addresses)) ∧
    (∀ a, a ∈ s.low ↔ (0x04 ≤ a ∧ a ≤ 0x77) ∧ a ∉ s.high ∧ a ∉ s.medium) ∧
    (∀ level, (s.list level).Pairwise (· < ·)) ∧
    (∀ level level', level ≠ level' → List.Disjoint (s.list level) (s.list level')) ∧
    (∀ a, 0x04 ≤ a ∧ a ≤ 0x77 → ∃! level, a ∈ s.list level) ∧
    (∀ devices', devices'.Perm devices → classify devices' = s) := by
  intro s
  refine ⟨mem_high_classify devices, ?_, mem_low_classify devices, pairwise_list devices, ?_, ?_, ?_⟩
  · intro a
    have hclaims : (∃ d ∈ devices, d.ClaimsSecond a) ↔
        (∃ d ∈ devices, d.scanLevel? = some .high ∧ a ∈ d.addresses.tail) ∨
          ∃ d ∈ devices, d.scanLevel? = some .medium ∧ a ∈ d.addresses := by
      simp only [DeviceType.ClaimsSecond, and_or_left, exists_or]
    rw [mem_medium_classify, hclaims]
  · intro level level' hne a ha ha'
    exact hne (list_disjoint devices ha ha')
  · intro a hwindow
    have hsome : ∃ level, a ∈ s.list level := by
      by_cases hhigh : a ∈ s.high
      · exact ⟨.high, hhigh⟩
      · by_cases hmedium : a ∈ s.medium
        · exact ⟨.medium, hmedium⟩
        · exact ⟨.low, (mem_low_classify devices a).2 ⟨hwindow, hhigh, hmedium⟩⟩
    obtain ⟨level, hlevel⟩ := hsome
    exact ⟨level, hlevel, fun level' hlevel' => list_disjoint devices hlevel' hlevel⟩
  · intro devices' hperm
    exact classify_eq_of_perm hperm

/-- An eager device and one of medium priority share the address 0x10: in either order of the two, it is in the first list only. -/
theorem classify_shared_address :
    let eager : DeviceType := { key := "A", addresses := [0x10, 0x11], scanPriority := some (.named "high") }
    let second : DeviceType := { key := "B", addresses := [0x10, 0x12], scanPriority := some (.level 2) }
    [second, eager].Perm [eager, second] ∧
      classify [second, eager] = classify [eager, second] ∧
      0x10 ∈ (classify [eager, second]).high ∧ 0x10 ∉ (classify [eager, second]).medium ∧
      0x11 ∈ (classify [eager, second]).medium ∧ 0x12 ∈ (classify [eager, second]).medium ∧
      ((0x04 : Address) ≤ 0x10 ∧ (0x10 : Address) ≤ 0x77) ∧ ∃! level, 0x10 ∈ (classify [eager, second]).list level := by
  intro eager second
  obtain ⟨hhigh, hmedium, -, -, hdisjoint, hunique, hperm⟩ := classify_by_most_eager_claim [eager, second]
  have heager : eager.scanLevel? = some .high := rfl
  have hsecond : second.scanLevel? = some .medium := rfl
  have hswap : [second, eager].Perm [eager, second] := List.Perm.swap eager second []
  have h10 : 0x10 ∈ (classify [eager, second]).high := (hhigh 0x10).2 ⟨eager, by simp, heager, rfl⟩
  have hwindow : (0x04 : Address) ≤ 0x10 ∧ (0x10 : Address) ≤ 0x77 := by decide
  have hhighOnly : ∀ a ∈ (classify [eager, second]).high, a = 0x10 := by
    intro a ha
    obtain ⟨d, hd, hlevel, hhead⟩ := (hhigh a).1 ha
    simp only [List.mem_cons, List.not_mem_nil, or_false] at hd
    rcases hd with rfl | rfl
    · exact (Option.some.inj hhead).symm
    · rw [hsecond] at hlevel
      cases hlevel
  refine ⟨hswap, hperm _ hswap, h10, ?_, ?_, ?_, hwindow, hunique 0x10 hwindow⟩
  · exact hdisjoint .high .medium (by decide) h10
  · refine (hmedium 0x11).2 ⟨fun h => absurd (hhighOnly _ h) (by decide), Or.inl ⟨eager, by simp, heager, ?_⟩⟩
    exact List.mem_singleton_self _
  · refine (hmedium 0x12).2 ⟨fun h => absurd (hhighOnly _ h) (by decide), Or.inr ⟨second, by simp, hsecond, ?_⟩⟩
    exact List.mem_cons_of_mem _ (List.mem_singleton_self _)

end ScanLists

end DeviceCatalog

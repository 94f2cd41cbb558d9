import DeviceCatalog.Artifact.Decoders
import DeviceCatalog.Proofs.Extraction

/-!
# Timestamps of poll results

The function that unwraps timestamps reads the bytes of one timestamp, once each and in order, and moves the decode state on
(`meaning_timestamp`): a timestamp that is less than the one before adds a period to the offset, and the result is the timestamp with the
offset.
-/

namespace DeviceCatalog.Artifact

open CSource

variable {α : Type} {M : Machine α} {scope : Scope α}

/-- The head of the function that unwraps timestamps. -/
def timestampSignature : Signature where
  qualifiers := ["static", "inline"]
  result := .uint64
  name := timestampFunction
  params := [[bufferParam, stateParam]]

/-- The body of that function. -/
def timestampBody (o : Options) : List Block :=
  [ .simple (.define .uint64 "timestampUs"
      (.binary .mul (.cast .uint64 (.group (composeBytes o.timestampBytes.toNat none .big))) (.var "POLL_RESULT_RESOLUTION_US"))),
    .when (.binary .less (.var "timestampUs") (stateMember "lastReportTimestampUs"))
      (.increase (stateMember "reportTimestampOffsetUs") (.var "POLL_RESULT_WRAP_US")),
    .simple (.assign (stateMember "lastReportTimestampUs") (.var "timestampUs")),
    .simple (.ret (.binary .add (.var "timestampUs") (stateMember "reportTimestampOffsetUs"))) ]

/-- The member of the decode state with the timestamp before. -/
def lastMember : String := "lastReportTimestampUs"

/-- The member of the decode state with what is added to a timestamp. -/
def offsetMember : String := "reportTimestampOffsetUs"

/-- The decode state moved on by a timestamp. -/
def unwrapState (t period : UInt64) (mem : Memory α) : Memory α :=
  (if t < mem.state lastMember then mem.set offsetMember (mem.state offsetMember + period) else mem).set lastMember t

/-- The timestamp in front of a poll result. -/
def timestampAt (M : Machine α) (width resolution p : Nat) : UInt64 :=
  UInt64.ofNat (ByteOrder.big.number (bytesAt M p width) * resolution)

/-- A function that unwraps timestamps of some bytes: it reads these bytes, moves the decode state on, and gives the timestamp with the
offset. -/
def GivesTimestamp (M : Machine α) (run : Meaning α) (width resolution : Nat) (period : UInt64) : Prop :=
  ∀ (p : Nat) (mem : Memory α), p + width ≤ M.buffer.length →
    let t := timestampAt M width resolution p
    let after := unwrapState t period (mem.log (readsFrom p width))
    run [.bytes p, .state] mem = some (.int .uint64 (t + after.state offsetMember).toNat, after)

theorem trace_unwrapState (t period : UInt64) (mem : Memory α) : (unwrapState t period mem).trace = mem.trace := by
  unfold unwrapState
  split <;> rfl

/-- The variables of the function that unwraps timestamps. -/
def timestampLocals (p : Nat) : List (Local α) :=
  [⟨"pBuf", .pointer (.const .uint8), .bytes p⟩, ⟨"decodeState", .named "RaftBusDeviceDecodeState&", .state⟩]

section Timestamp

variable {p : Nat} {t : UInt64} {mem : Memory α}

/-- The variables once the timestamp is known. -/
def unwrapLocals (p : Nat) (t : UInt64) : List (Local α) :=
  ⟨"timestampUs", .uint64, .int .uint64 t.toNat⟩ :: timestampLocals p

/-- The timestamp within its period is in its variable. -/
theorem eval_timestampUs :
    (Expr.var "timestampUs").eval M scope (unwrapLocals p t) mem = some (.int .uint64 t.toNat, mem) :=
  eval_var rfl

/-- A member of the state has the value that the memory holds for it. -/
theorem eval_stateMember (name : String) :
    (stateMember name).eval M scope (unwrapLocals p t) mem = some (.int .uint64 (mem.state name).toNat, mem) :=
  bind_eq_of_eq_some _ (eval_var rfl)

/-- Storing a member of the state changes it in the memory. -/
theorem store_stateMember (n : UInt64) (name : String) :
    Frame.store M scope ⟨unwrapLocals p t, mem⟩ (.int .uint64 n.toNat) (stateMember name) = some ⟨unwrapLocals p t, mem.set name n⟩ := by
  have hkept : UInt64.ofInt n.toNat = n := by
    have hlt := n.toNat_lt
    have hmod : ((n.toNat : Int) % 2 ^ 64).toNat = n.toNat := by omega
    rw [UInt64.ofInt, hmod, UInt64.ofNat_toNat]
  refine (rfl : _ = some (⟨unwrapLocals p t, mem.set name (UInt64.ofInt n.toNat)⟩ : Frame α)).trans ?_
  rw [hkept]

/-- The sum of two numbers of the decode state's type. -/
theorem eval_sum {ls : List (Local α)} {l r : Expr} {x y : UInt64} {mem mem₁ mem₂ : Memory α}
    (hl : l.eval M scope ls mem = some (.int .uint64 x.toNat, mem₁)) (hr : r.eval M scope ls mem₁ = some (.int .uint64 y.toNat, mem₂)) :
    (Expr.binary .add l r).eval M scope ls mem = some (.int .uint64 (x + y).toNat, mem₂) := by
  have hcommon : IntType.uint64.common .uint64 = .uint64 := rfl
  have hx : IntType.uint64.wrap x.toNat = x.toNat := IntType.wrap_natCast rfl x.toNat_lt
  have hy : IntType.uint64.wrap y.toNat = y.toNat := IntType.wrap_natCast rfl y.toNat_lt
  have hsum : IntType.uint64.wrap (x.toNat + y.toNat) = (x + y).toNat := by
    rw [UInt64.toNat_add]
    push_cast
    rfl
  have hvalue : M.apply .add (.int .uint64 x.toNat) (.int .uint64 y.toNat) = some (.int .uint64 (x + y).toNat) := by
    rw [Machine.apply_integers, Value.ofIntegers_add, hcommon, hx, hy, Value.computed_of_unsigned rfl, hsum]
  exact eval_binary (by decide) hl hr hvalue

/-- A timestamp that is less than the one before moves the offset. -/
theorem exec_wrap (p : Nat) (t : UInt64) (mem : Memory α) {period : UInt64}
    (hwrap : scope.constants.lookup "POLL_RESULT_WRAP_US" = some (.int .uint64 period.toNat)) :
    (Block.when (.binary .less (.var "timestampUs") (stateMember "lastReportTimestampUs"))
      (.increase (stateMember "reportTimestampOffsetUs") (.var "POLL_RESULT_WRAP_US"))).exec M scope ⟨unwrapLocals p t, mem⟩ =
        some (⟨unwrapLocals p t,
          if t < mem.state lastMember then mem.set offsetMember (mem.state offsetMember + period) else mem⟩, none) := by
  have hless : (Expr.binary .less (.var "timestampUs") (stateMember "lastReportTimestampUs")).eval M scope
      (unwrapLocals p t) mem = some (.ofBool (decide (t.toNat < (mem.state lastMember).toNat)), mem) :=
    eval_binary (by decide) eval_timestampUs (eval_stateMember "lastReportTimestampUs")
      (Machine.apply_less (c := .uint64) rfl rfl t.toNat_lt (UInt64.toNat_lt _))
  have htest := test_eq hless (Value.truth?_ofBool _)
  rw [Block.exec, runFirst_cons htest]
  by_cases hlt : t < mem.state lastMember
  · have hperiod : (Expr.var "POLL_RESULT_WRAP_US").eval M scope (unwrapLocals p t) mem = some (.int .uint64 period.toNat, mem) :=
      eval_constant rfl hwrap
    have hincrease : (Stmt.increase (stateMember "reportTimestampOffsetUs") (.var "POLL_RESULT_WRAP_US")).exec M scope
        ⟨unwrapLocals p t, mem⟩ = some (⟨unwrapLocals p t, mem.set offsetMember (mem.state offsetMember + period)⟩, none) :=
      exec_increase (eval_sum (eval_stateMember "reportTimestampOffsetUs") hperiod) (store_stateMember _ _)
    rw [if_pos hlt, decide_eq_true (UInt64.lt_iff_toNat_lt.1 hlt), if_pos rfl]
    exact runInside_eq [] (runAll_cons hincrease) rfl
  · rw [if_neg hlt, decide_eq_false (fun h => hlt (UInt64.lt_iff_toNat_lt.2 h))]
    rfl

/-- The ticks in front of a poll result, and the microseconds that they are. -/
theorem eval_timestampProduct {width : Nat} {res : UInt32} (hpos : 0 < width) (hle : width ≤ 4) (hin : p + width ≤ M.buffer.length)
    (hresolution : scope.constants.lookup "POLL_RESULT_RESOLUTION_US" = some (.int .uint32 res.toNat)) (mem : Memory α) :
    (Expr.binary .mul (.cast .uint64 (.group (composeBytes width none .big))) (.var "POLL_RESULT_RESOLUTION_US")).eval M scope
      (timestampLocals p) mem = some (.int .uint64 (timestampAt M width res.toNat p).toNat, mem.log (readsFrom p width)) := by
  have hbuf : scope.variable (timestampLocals p) "pBuf" = .bytes p := rfl
  have hbase : BaseIs scope (timestampLocals p) none 0 := rfl
  have hraw := eval_composeBytes (M := M) .big hbuf hbase hle (by omega) (by omega) hpos mem
  rw [Nat.add_zero] at hraw
  have hticks : ByteOrder.big.number (bytesAt M p width) < 2 ^ 32 := by
    have hlt := ByteOrder.number_lt .big (bytesAt M p width)
    rw [length_bytesAt hin] at hlt
    exact Nat.lt_of_lt_of_le hlt (Nat.pow_le_pow_right (by decide) hle)
  -- Both factors have at most 32 bits, which is why the product in 64 bits is exact.
  have hproduct : ByteOrder.big.number (bytesAt M p width) * res.toNat < 2 ^ 64 := by
    have hres := res.toNat_lt
    exact Nat.lt_of_lt_of_le (Nat.mul_lt_mul_of_lt_of_lt hticks hres) (by decide)
  have hconverted : M.convert .uint64 (.int (composedType width) (ByteOrder.big.number (bytesAt M p width))) =
      .int .uint64 (ByteOrder.big.number (bytesAt M p width)) := Machine.convert_natCast rfl rfl _ (Nat.lt_trans hticks (by decide))
  have hwide : (Expr.cast .uint64 (.group (composeBytes width none .big))).eval M scope (timestampLocals p) mem =
      some (.int .uint64 (ByteOrder.big.number (bytesAt M p width)), mem.log (readsFrom p width)) := by
    rw [← hconverted]
    exact eval_cast ((eval_group _).trans hraw)
  have hkept : (timestampAt M width res.toNat p).toNat = ByteOrder.big.number (bytesAt M p width) * res.toNat := by
    rw [timestampAt, UInt64.toNat_ofNat_of_lt' hproduct]
  rw [hkept]
  exact eval_binary (by decide) hwide (eval_constant rfl hresolution)
    (Machine.apply_mul rfl rfl (Nat.lt_trans hticks (by decide)) (Nat.lt_trans res.toNat_lt (by decide)) hproduct)

/-- The function that unwraps timestamps gives one. -/
theorem givesTimestamp_meaning {o : Options} (hpos : 0 < o.timestampBytes.toNat) (hle : o.timestampBytes.toNat ≤ 4)
    (hresolution : scope.constants.lookup "POLL_RESULT_RESOLUTION_US" = some (.int .uint32 o.pollResolution.toNat))
    (hwrap : scope.constants.lookup "POLL_RESULT_WRAP_US" = some (.int .uint64 o.wrapPeriod.toNat)) :
    GivesTimestamp M (meaning M scope timestampSignature (timestampBody o)) o.timestampBytes.toNat o.pollResolution.toNat o.wrapPeriod := by
  intro p mem hin t after
  have hproduct := eval_timestampProduct hpos hle hin hresolution mem
  have hdefine := exec_define .uint64 "timestampUs" hproduct
  rw [Machine.convert_toNat] at hdefine
  have hwhen := exec_wrap (M := M) p t (mem.log (readsFrom p o.timestampBytes.toNat)) hwrap
  generalize hmoved : (if t < (mem.log (readsFrom p o.timestampBytes.toNat)).state lastMember then
    (mem.log (readsFrom p o.timestampBytes.toNat)).set offsetMember
      ((mem.log (readsFrom p o.timestampBytes.toNat)).state offsetMember + o.wrapPeriod)
    else mem.log (readsFrom p o.timestampBytes.toNat)) = moved at hwhen
  have hafter : after = moved.set lastMember t := by
    rw [← hmoved]
    rfl
  have hassign : (Stmt.assign (stateMember "lastReportTimestampUs") (.var "timestampUs")).exec M scope ⟨unwrapLocals p t, moved⟩ =
      some (⟨unwrapLocals p t, after⟩, none) := by
    rw [hafter]
    exact exec_assign eval_timestampUs (store_stateMember _ _)
  have hoffset : (stateMember offsetMember).eval M scope (unwrapLocals p t) after =
      some (.int .uint64 (after.state offsetMember).toNat, after) := eval_stateMember offsetMember
  have hsum := eval_sum eval_timestampUs hoffset
  have hrun : runAll (Block.exec M scope) (timestampBody o) ⟨timestampSignature.locals M [.bytes p, .state], mem⟩ =
      some (⟨unwrapLocals p t, after⟩, some (.int .uint64 (t + after.state offsetMember).toNat)) := by
    refine (runAll_simple hdefine).trans ?_
    refine (runAll_cons hwhen).trans ?_
    refine (runAll_simple hassign).trans ?_
    exact runAll_ret hsum
  have hresult : M.convert .uint64 (.int .uint64 (t + after.state offsetMember).toNat) = .int .uint64 (t + after.state offsetMember).toNat :=
    Machine.convert_toNat _
  rw [← hresult]
  exact meaning_eq (s := timestampSignature) rfl hrun

end Timestamp

end DeviceCatalog.Artifact

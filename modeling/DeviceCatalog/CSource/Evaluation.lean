import DeviceCatalog.CSource.Item
import DeviceCatalog.CSource.Value

/-!
# Running emitted functions

What the functions of an emitted file do on a machine. Running leaves a trace: the bytes read, the members written, the turns of loops and
the calls of functions that the file does not define. A run is stuck, which is `none`, where it reads outside the buffer, makes a pointer
outside it, or decides by an unknown value; a loop that does not end has no result either. A function sees the items in front of it, and
of two functions of one name the first one counts.
-/

namespace DeviceCatalog.CSource

variable {α : Type}

/-- Something that a run does. -/
inductive Event (α : Type) where
  /-- A turn of a loop begins. -/
  | turn
  /-- The byte at a position of the buffer is read. -/
  | read (position : Nat)
  /-- A member of a structure gets a value. -/
  | write (struct : String) (index : Nat) (member : String) (value : Value α)
  /-- A function that the file does not define is called. -/
  | called (function : String) (arguments : List (Value α))

/-- What outlives a call: the members of the decode state, all of type `uint64_t`, and the trace. -/
structure Memory (α : Type) where
  state : String → UInt64
  trace : List (Event α)

/-- More events behind a trace. -/
def Memory.log (mem : Memory α) (es : List (Event α)) : Memory α :=
  { mem with trace := mem.trace ++ es }

/-- A member of the decode state set. -/
def Memory.set (mem : Memory α) (member : String) (n : UInt64) : Memory α :=
  { mem with state := fun name => if name = member then n else mem.state name }

/-- A variable of a function. -/
structure Local (α : Type) where
  name : String
  type : CType
  value : Value α

/-- What is known inside a function: its variables, the latest in front, and the memory. -/
structure Frame (α : Type) where
  locals : List (Local α)
  memory : Memory α

/-- More events behind the trace of a frame. -/
def Frame.log (fr : Frame α) (es : List (Event α)) : Frame α :=
  { fr with memory := fr.memory.log es }

/-- What a function does with its arguments. -/
abbrev Meaning (α : Type) := List (Value α) → Memory α → Option (Value α × Memory α)

/-- What a file defines, in the order of definition. -/
structure Scope (α : Type) where
  constants : List (String × Value α) := []
  structs : List (String × List (CType × String)) := []
  functions : List (String × Meaning α) := []

section Running

variable (M : Machine α) (scope : Scope α)

/-- The value of a name: of a variable, else of a constant. -/
def Scope.variable (ls : List (Local α)) (name : String) : Value α :=
  match ls.find? fun l => l.name = name with
  | some l => l.value
  | none => (scope.constants.lookup name).getD (.foreign name)

/-- What a pointer to the buffer points to. -/
def Machine.load : Value α → Memory α → Option (Value α × Memory α)
  | .bytes p, mem => (M.buffer[p]?).map fun b => (.int .uint8 b.toNat, mem.log [.read p])
  | _, _ => none

/-- A function called. -/
def Scope.call (function : String) : Meaning α := fun vs mem =>
  match scope.functions.lookup function with
  | some meaning => meaning vs mem
  | none => some (M.external function vs, mem.log [.called function vs])

mutual

/-- The value of an expression. -/
def Expr.eval (ls : List (Local α)) : Expr → Memory α → Option (Value α × Memory α)
  | .var name, mem => some (scope.variable ls name, mem)
  | .decimal n, mem => some (Value.ofDecimal n, mem)
  | .wide n, mem => some (.int .uint64 (IntType.uint64.wrap n), mem)
  | .address a, mem => some (.int .int a.toNat, mem)
  | .double x, mem => some (.real .double (M.literal .double x), mem)
  | .single x, mem => some (.real .single (M.literal .single x), mem)
  | .string s, mem | .raw s, mem => some (.text s, mem)
  | .group e, mem => e.eval ls mem
  | .cast type e, mem => do
    let (v, mem) ← e.eval ls mem
    some (M.convert type v, mem)
  | .not e, mem => do
    let (v, mem) ← e.eval ls mem
    let b ← v.truth?
    some (.ofBool !b, mem)
  | .binary op l r, mem => do
    let (x, mem) ← l.eval ls mem
    match op with
    | .both =>
      if ← x.truth? then
        let (y, mem) ← r.eval ls mem
        some (.ofBool (← y.truth?), mem)
      else some (.ofBool false, mem)
    | .either =>
      if ← x.truth? then some (.ofBool true, mem)
      else
        let (y, mem) ← r.eval ls mem
        some (.ofBool (← y.truth?), mem)
    | op =>
      let (y, mem) ← r.eval ls mem
      some (← M.apply op x y, mem)
  | .index array position, mem => do
    let (p, mem) ← array.eval ls mem
    let (n, mem) ← position.eval ls mem
    M.load (← M.apply .add p n) mem
  | .member object name, mem => do
    let (v, mem) ← object.eval ls mem
    match v with
    | .state => some (.int .uint64 (mem.state name).toNat, mem)
    | v => some (M.memberOf name v, mem)
  | .arrow _ _, _ => none
  | .call function arguments, mem => do
    let (vs, mem) ← Expr.evalAll ls arguments mem
    scope.call M function vs mem
  | .sizeOf type, mem => some (.int M.sizeType (M.sizeOf type), mem)

/-- The values of arguments. -/
def Expr.evalAll (ls : List (Local α)) : List Expr → Memory α → Option (List (Value α) × Memory α)
  | [], mem => some ([], mem)
  | e :: es, mem => do
    let (v, mem) ← e.eval ls mem
    let (vs, mem) ← Expr.evalAll ls es mem
    some (v :: vs, mem)

end

/-- The variables after the latest one of a name gets a value. -/
def assigned? (name : String) (v : Value α) : List (Local α) → Option (List (Local α))
  | [] => none
  | l :: ls =>
    if l.name = name then some ({ l with value := M.convert l.type v } :: ls)
    else (assigned? name v ls).map (l :: ·)

/-- The type of a member of a structure. -/
def Scope.memberType? (struct member : String) : Option CType := do
  let members ← scope.structs.lookup struct
  let (type, _) ← members.find? fun m => m.2 = member
  some type

/-- The frame after a value is put into what an expression names. -/
def Frame.store (fr : Frame α) (v : Value α) : Expr → Option (Frame α)
  | .var name => do some { fr with locals := ← assigned? M name v fr.locals }
  | .member (.var name) member =>
    match scope.variable fr.locals name, v with
    | .state, .int _ n => some { fr with memory := fr.memory.set member (UInt64.ofInt n) }
    | .state, _ => none
    | _, v => do some { fr with locals := ← assigned? M name (v.withMember member) fr.locals }
  | .arrow pointer member => do
    let (p, mem) ← pointer.eval M scope fr.locals fr.memory
    match p with
    | .slot name i => do
      let type ← scope.memberType? name member
      some { fr with memory := mem.log [.write name i member (M.convert type v)] }
    | _ => none
  | _ => none

/-- The frame with one variable more. -/
def Frame.bind (fr : Frame α) (type : CType) (name : String) (v : Value α) (mem : Memory α) : Frame α :=
  ⟨⟨name, type, v⟩ :: fr.locals, mem⟩

/-- The frame after the value of an expression is put into what another one names. -/
def Frame.assign (fr : Frame α) (target value : Expr) : Option (Frame α) := do
  let (v, mem) ← value.eval M scope fr.locals fr.memory
  { fr with memory := mem }.store M scope v target

/-- A statement run, with the value that it returns, if it does. -/
def Stmt.exec (fr : Frame α) : Stmt → Option (Frame α × Option (Value α))
  | .declare type name => some (fr.bind type name .unknown fr.memory, none)
  | .define type name value => do
    let (v, mem) ← value.eval M scope fr.locals fr.memory
    some (fr.bind type name (M.convert type v) mem, none)
  | .assign target value => do some (← fr.assign M scope target value, none)
  | .increase target amount => do some (← fr.assign M scope target (.binary .add target amount), none)
  | .decrease target amount => do some (← fr.assign M scope target (.binary .sub target amount), none)
  | .increment target => do some (← fr.assign M scope target (.binary .add target (.decimal 1)), none)
  | .run e => do
    let (_, mem) ← e.eval M scope fr.locals fr.memory
    some ({ fr with memory := mem }, none)
  | .ret value => do
    let (v, mem) ← value.eval M scope fr.locals fr.memory
    some ({ fr with memory := mem }, some v)

/-- Things run in turn until one returns. -/
def runAll {β : Type} (run : Frame α → β → Option (Frame α × Option (Value α))) : List β → Frame α →
    Option (Frame α × Option (Value α))
  | [], fr => some (fr, none)
  | x :: xs, fr => do
    let (fr, out) ← run fr x
    match out with
    | some v => some (fr, some v)
    | none => runAll run xs fr

/-- Statements run between braces: the variables that they define end with them. -/
def runInside (body : List Stmt) (fr : Frame α) : Option (Frame α × Option (Value α)) := do
  let (after, out) ← runAll (Stmt.exec M scope) body fr
  some ({ after with locals := after.locals.drop (after.locals.length - fr.locals.length) }, out)

/-- What a condition decides. -/
def Frame.test (fr : Frame α) (condition : Expr) : Option (Bool × Frame α) := do
  let (v, mem) ← condition.eval M scope fr.locals fr.memory
  some (← v.truth?, { fr with memory := mem })

/-- A loop run until its condition does not hold or its body returns. -/
def Frame.runLoop (condition : Expr) (body : List Stmt) (fr : Frame α) : Option (Frame α × Option (Value α)) := do
  let (goesOn, fr) ← fr.test M scope condition
  if goesOn then
    let (fr, out) ← runInside M scope body (fr.log [.turn])
    match out with
    | some v => some (fr, some v)
    | none => fr |>.runLoop condition body
  else some (fr, none)
partial_fixpoint

/-- The first branch run whose condition holds. -/
def runFirst : List (Expr × List Stmt) → Frame α → Option (Frame α × Option (Value α))
  | [], fr => some (fr, none)
  | (condition, body) :: rest, fr => do
    let (holds, fr) ← fr.test M scope condition
    if holds then runInside M scope body fr else runFirst rest fr

/-- A part of a function body run. -/
def Block.exec (fr : Frame α) : Block → Option (Frame α × Option (Value α))
  | .blank => some (fr, none)
  | .simple s => s.exec M scope fr
  | .when condition s => runFirst M scope [(condition, [s])] fr
  | .loop condition body => fr.runLoop M scope condition body
  | .choose branches => runFirst M scope branches fr

/-- The variables that a function starts with. -/
def Signature.locals (s : Signature) (vs : List (Value α)) : List (Local α) :=
  (s.params.flatten.zip vs).map fun p => ⟨p.1.name, p.1.type, M.convert p.1.type p.2⟩

/-- What a function does. -/
def meaning (s : Signature) (body : List Block) : Meaning α := fun vs mem =>
  if vs.length = s.params.flatten.length then do
    let (fr, out) ← runAll (Block.exec M scope) body ⟨s.locals M vs, mem⟩
    match out with
    | some v => some (M.convert s.result v, fr.memory)
    | none => some (.unknown, fr.memory)
  else none

/-- The scope behind an item. -/
def Scope.link (item : Item) : Scope α :=
  match item with
  | .constant type name value =>
    match value.eval M scope [] ⟨fun _ => 0, []⟩ with
    | some (v, _) => { scope with constants := scope.constants ++ [(name, M.convert type v)] }
    | none => scope
  | .struct name members => { scope with structs := scope.structs ++ [(name, members)] }
  | .function _ s body => { scope with functions := scope.functions ++ [(s.name, meaning M scope s body)] }
  | _ => scope

end Running

/-- The scope behind some items. -/
def Scope.ofItems (M : Machine α) (items : List Item) : Scope α :=
  items.foldl (Scope.link M) {}

/-- A function of a file run on a machine. -/
def runFunction (M : Machine α) (items : List Item) (function : String) : Meaning α := fun vs mem => do
  let run ← (Scope.ofItems M items).functions.lookup function
  run vs mem

end DeviceCatalog.CSource

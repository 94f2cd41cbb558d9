import DeviceCatalog.Artifact.Bindings
import DeviceCatalog.Proofs.Evaluation

/-!
# Filling dictionaries

A decoder makes a dictionary that holds the timestamp, and puts one object after the other into it. The functions that do this make a key of
the symbol and an object of the value, store them, and do nothing else that counts: they read no byte and store nothing more
(`createsDictionary_meaning`, `storesObject_meaning`).
-/

namespace DeviceCatalog.Artifact

open CSource

variable {α : Type} {M : Machine α} {scope : Scope α} {ls : List (Local α)}

/-! ## Stores -/

/-- An object that is put into a dictionary under a key. -/
structure Stored (α : Type) where
  dict : Value α
  key : Value α
  object : Value α

/-- What an event puts into a dictionary. -/
def Event.stored? : Event α → Option (Stored α)
  | .called function [dict, key, object] => if function = "mp_obj_dict_store" then some ⟨dict, key, object⟩ else none
  | _ => none

/-- Some events read some positions and put some objects into dictionaries, in these orders. -/
structure ReadsStores (es : List (Event α)) (positions : List Nat) (stores : List (Stored α)) : Prop where
  reads : es.filterMap Event.read? = positions
  stores : es.filterMap Event.stored? = stores

theorem ReadsStores.nil : ReadsStores ([] : List (Event α)) [] [] :=
  ⟨rfl, rfl⟩

theorem ReadsStores.append {es es' : List (Event α)} {ps ps' : List Nat} {ss ss' : List (Stored α)} (h : ReadsStores es ps ss)
    (h' : ReadsStores es' ps' ss') : ReadsStores (es ++ es') (ps ++ ps') (ss ++ ss') :=
  ⟨by rw [List.filterMap_append, h.reads, h'.reads], by rw [List.filterMap_append, h.stores, h'.stores]⟩

/-- Reads from a position on read the bytes there and store nothing. -/
theorem readsStores_readsFrom (start count : Nat) :
    ReadsStores (readsFrom start count : List (Event α)) (List.range' start count) [] := by
  refine ⟨filterMap_read?_readsFrom start count, ?_⟩
  rw [List.filterMap_eq_nil_iff]
  intro e he
  obtain ⟨i, -, rfl⟩ := List.mem_map.1 he
  rfl

theorem readsStores_called {function : String} (h : function ≠ "mp_obj_dict_store") (vs : List (Value α)) :
    ReadsStores [.called function vs] [] [] := by
  refine ⟨rfl, ?_⟩
  rw [List.filterMap_cons_none, List.filterMap_nil]
  unfold Event.stored?
  split
  · rename_i heq
    obtain ⟨rfl, -⟩ := Event.called.inj heq
    exact if_neg h
  · rfl

theorem readsStores_stored (dict key object : Value α) :
    ReadsStores [.called "mp_obj_dict_store" [dict, key, object]] [] [⟨dict, key, object⟩] :=
  ⟨rfl, rfl⟩

/-! ## Objects -/

/-- Evaluating the expression gives a value, without reading or storing anything. -/
def Yields (M : Machine α) (scope : Scope α) (ls : List (Local α)) (e : Expr) (v : Value α) : Prop :=
  ∃ es, Gives M scope ls e v es ∧ ReadsStores es [] []

/-- Evaluating the arguments gives values, without reading or storing anything. -/
def YieldsAll (M : Machine α) (scope : Scope α) (ls : List (Local α)) (es : List Expr) (vs : List (Value α)) : Prop :=
  ∃ events, GivesAll M scope ls es vs events ∧ ReadsStores events [] []

/-- What gives a value without a trace yields it. -/
theorem Gives.yields {e : Expr} {v : Value α} (h : Gives M scope ls e v []) : Yields M scope ls e v :=
  ⟨[], h, .nil⟩

theorem yields_var {name : String} {v : Value α} (h : scope.variable ls name = v) : Yields M scope ls (.var name) v :=
  h ▸ Gives.yields (gives_var name)

theorem yields_string (s : String) : Yields M scope ls (.string s) (.text s) :=
  Gives.yields (gives_of_eval fun _ => eval_string s)

theorem yields_single (x : Binary64) : Yields M scope ls (.single x) (.real .single (M.literal .single x)) :=
  Gives.yields (gives_of_eval fun _ => eval_single x)

theorem Yields.cast {e : Expr} {v : Value α} (h : Yields M scope ls e v) (type : CType) : Yields M scope ls (.cast type e) (M.convert type v) := by
  obtain ⟨es, hv, hes⟩ := h
  exact ⟨es, hv.cast type, hes⟩

theorem yieldsAll_nil : YieldsAll M scope ls [] [] :=
  ⟨[], givesAll_nil, .nil⟩

theorem Yields.cons {e : Expr} {es : List Expr} {v : Value α} {vs : List (Value α)} (h : Yields M scope ls e v) (hs : YieldsAll M scope ls es vs) :
    YieldsAll M scope ls (e :: es) (v :: vs) := by
  obtain ⟨first, hv, hfirst⟩ := h
  obtain ⟨others, hvs, hothers⟩ := hs
  exact ⟨first ++ others, hv.cons hvs, hfirst.append hothers⟩

/-- A function of the runtime that stores nothing makes what it makes. -/
theorem YieldsAll.external {function : String} {es : List Expr} {vs : List (Value α)} (h : YieldsAll M scope ls es vs)
    (hf : scope.functions.lookup function = none) (hstore : function ≠ "mp_obj_dict_store") :
    Yields M scope ls (.call function es) (M.external function vs) := by
  obtain ⟨events, hvs, hevents⟩ := h
  exact ⟨_, hvs.external hf, hevents.append (readsStores_called hstore vs)⟩

/-- The key that a symbol makes. -/
def keyOf (M : Machine α) (symbol : Value α) : Value α :=
  M.external "MP_OBJ_NEW_QSTR" [symbol]

/-- The object that a value of a kind makes. -/
def StoreKind.made (M : Machine α) (k : StoreKind) (v : Value α) : Value α :=
  match k with
  | .float => M.external "mp_obj_new_float" [v]
  | .int => M.external "mp_obj_new_int" [v]
  | .str => M.external "mp_obj_new_str" [v, M.external "strlen" [v]]

/-- The dictionary that a decoder fills. -/
def newDictionary (M : Machine α) : Value α :=
  M.convert objectType (M.external "mp_obj_new_dict" [.int .int 8])

theorem convert_newDictionary (M : Machine α) : M.convert objectType (newDictionary M) = newDictionary M := by
  have hobject : ∀ v : Value α, M.convert objectType (M.convert objectType v) = M.convert objectType v := fun v => by cases v <;> rfl
  exact hobject _

/-! ## The functions -/

/-- The functions of the runtime that make and fill dictionaries. -/
def runtimeFunctions : List String :=
  [ "mp_obj_new_dict", "mp_obj_dict_store", "MP_OBJ_NEW_QSTR", "mp_obj_new_int_from_ull", "mp_obj_new_float", "mp_obj_new_int",
    "mp_obj_new_str", "strlen" ]

/-- The body of the function that makes a dictionary with a timestamp. -/
def createBody (o : ScriptOptions) : List Block :=
  [ .simple (.define objectType "dict" (.call "mp_obj_new_dict" [.decimal 8])),
    .simple (storeObject (o.symbol "timestamp") (.call "mp_obj_new_int_from_ull" [.var "timestampUs"])),
    .simple (.ret (.var "dict")) ]

/-- The body of a function that stores a value of a kind. -/
def storeBody (k : StoreKind) : List Block :=
  [.simple (storeObject "key_qstr" k.object)]

/-- What a store does when it puts the object of an entry into the dictionary of a decoder: it does so under the symbol of the entry's name,
unless a variable hides the symbol. -/
structure StoresEntry (M : Machine α) (o : ScriptOptions) (hidden : List String) (s : Stored α) (entry : String × Value α) : Prop where
  dict : s.dict = newDictionary M
  object : s.object = entry.2
  key : o.symbol entry.1 ∉ hidden → s.key = keyOf M (.foreign (o.symbol entry.1))

/-- An entry that is stored where some names are hidden is stored where more are. -/
theorem StoresEntry.mono {o : ScriptOptions} {hidden hidden' : List String} {s : Stored α} {entry : String × Value α}
    (h : StoresEntry M o hidden s entry) (hsub : hidden ⊆ hidden') : StoresEntry M o hidden' s entry :=
  ⟨h.dict, h.object, fun hfree => h.key fun hmem => hfree (hsub hmem)⟩

/-- A function that puts an object made of a value of a kind into a dictionary, and does nothing else that counts. -/
def StoresObject (M : Machine α) (run : Meaning α) (k : StoreKind) : Prop :=
  ∀ dict symbol v, ∃ es, (∀ mem, run [dict, symbol, v] mem = some (.unknown, mem.log es)) ∧
    ReadsStores es [] [⟨M.convert objectType dict, keyOf M (M.convert (.named "qstr") symbol), k.made M (M.convert k.valueType v)⟩]

/-- The entry for the timestamp. -/
def timestampEntry (M : Machine α) (timestamp : UInt64) : String × Value α :=
  ("timestamp", M.external "mp_obj_new_int_from_ull" [.int .uint64 timestamp.toNat])

/-- The variables of the function that makes a dictionary. -/
def createNames : List String := ["dict", "timestampUs"]

/-- A function that makes a dictionary with a timestamp, and does nothing else that counts. -/
def CreatesDictionary (M : Machine α) (run : Meaning α) (o : ScriptOptions) : Prop :=
  ∀ timestamp : UInt64, ∃ es s, (∀ mem, run [.int .uint64 timestamp.toNat] mem = some (newDictionary M, mem.log es)) ∧
    ReadsStores es [] [s] ∧ StoresEntry M o createNames s (timestampEntry M timestamp)

section Functions

variable (hruntime : ∀ f ∈ runtimeFunctions, scope.functions.lookup f = none)

include hruntime

/-- The statement that puts an object into a dictionary. -/
theorem exec_storeObject (symbol : String) {value : Expr} {v : Value α} (hvalue : Yields M scope ls value v) :
    ∃ es, (∀ mem, (storeObject symbol value).exec M scope ⟨ls, mem⟩ = some (⟨ls, mem.log es⟩, none)) ∧
      ReadsStores es [] [⟨scope.variable ls "dict", keyOf M (scope.variable ls symbol), v⟩] := by
  have hkey : Yields M scope ls (.call "MP_OBJ_NEW_QSTR" [.var symbol]) (keyOf M (scope.variable ls symbol)) :=
    ((yields_var rfl).cons yieldsAll_nil).external (hruntime _ (by decide)) (by decide)
  obtain ⟨es, harguments, hes⟩ := (yields_var rfl).cons (hkey.cons (hvalue.cons yieldsAll_nil))
  exact ⟨_, fun mem => exec_run (harguments.external (hruntime _ (by decide)) mem), hes.append (readsStores_stored _ _ _)⟩

/-- The object of a value. -/
theorem yields_object (k : StoreKind) {v : Value α} (hv : scope.variable ls "value" = v) : Yields M scope ls k.object (k.made M v) := by
  have hvalue : YieldsAll M scope ls [.var "value"] [v] := (yields_var hv).cons yieldsAll_nil
  cases k with
  | float => exact hvalue.external (hruntime _ (by decide)) (by decide)
  | int => exact hvalue.external (hruntime _ (by decide)) (by decide)
  | str =>
    have hlength : Yields M scope ls (.call "strlen" [.var "value"]) (M.external "strlen" [v]) :=
      hvalue.external (hruntime _ (by decide)) (by decide)
    exact ((yields_var hv).cons (hlength.cons yieldsAll_nil)).external (hruntime _ (by decide)) (by decide)

/-- The functions that store an entry do store it. -/
theorem storesObject_meaning (k : StoreKind) : StoresObject M (meaning M scope k.signature (storeBody k)) k := by
  intro dict symbol v
  have hobject : Yields M scope (k.signature.locals M [dict, symbol, v]) k.object (k.made M (M.convert k.valueType v)) :=
    yields_object hruntime k rfl
  obtain ⟨es, hstore, hes⟩ := exec_storeObject hruntime "key_qstr" hobject
  refine ⟨es, fun mem => ?_, hes⟩
  have hrun : runAll (Block.exec M scope) (storeBody k) ⟨k.signature.locals M [dict, symbol, v], mem⟩ =
      some (⟨k.signature.locals M [dict, symbol, v], mem.log es⟩, none) := runAll_simple (hstore mem)
  exact meaning_eq_of_end rfl hrun

/-- The function that makes a dictionary makes one and stores the timestamp in it. -/
theorem createsDictionary_meaning (hconstants : scope.constants = []) (o : ScriptOptions) :
    CreatesDictionary M (meaning M scope createSignature (createBody o)) o := by
  intro timestamp
  let before : List (Local α) := [⟨"timestampUs", .uint64, .int .uint64 timestamp.toNat⟩]
  let inside : List (Local α) := ⟨"dict", objectType, newDictionary M⟩ :: before
  have htime : M.convert .uint64 (.int .uint64 timestamp.toNat) = .int .uint64 timestamp.toNat := Machine.convert_toNat timestamp
  have hlocals : createSignature.locals M [.int .uint64 timestamp.toNat] = before := by
    simp [Signature.locals, createSignature, before, htime]
  have height : Yields M scope before (.decimal 8) (.int .int 8) := Gives.yields (gives_of_eval fun _ => rfl)
  obtain ⟨first, hdict, hfirst⟩ :=
    (height.cons yieldsAll_nil).external (hruntime "mp_obj_new_dict" (by decide)) (by decide)
  have htimestamp : Yields M scope inside (.call "mp_obj_new_int_from_ull" [.var "timestampUs"]) (timestampEntry M timestamp).2 :=
    ((yields_var rfl).cons yieldsAll_nil).external (hruntime _ (by decide)) (by decide)
  obtain ⟨second, hstore, hsecond⟩ := exec_storeObject hruntime (o.symbol "timestamp") htimestamp
  refine ⟨first ++ second, _, fun mem => ?_, hfirst.append hsecond, rfl, rfl, fun hfree => ?_⟩
  · have hrun : runAll (Block.exec M scope) (createBody o) ⟨before, mem⟩ =
        some (⟨inside, mem.log (first ++ second)⟩, some (newDictionary M)) := by
      refine (runAll_simple (exec_define objectType "dict" (hdict mem))).trans ?_
      refine (runAll_simple (hstore _)).trans ?_
      rw [Memory.log_log]
      exact runAll_ret (eval_var rfl)
    rw [← hlocals] at hrun
    rw [meaning_eq rfl hrun]
    exact congrArg (fun v => some (v, mem.log (first ++ second))) (convert_newDictionary M)
  · have hnames : ∀ l ∈ inside, l.name ∈ createNames := by simp [inside, before, createNames]
    refine congrArg (keyOf M) (variable_eq_foreign hconstants fun l hl heq => ?_)
    have hmem : o.symbol "timestamp" ∈ createNames := heq ▸ hnames l hl
    exact hfree hmem

end Functions

end DeviceCatalog.Artifact

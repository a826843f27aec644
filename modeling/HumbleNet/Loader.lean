import Mathlib.Data.List.Basic

/-! The loader (`loader.cpp`): the public functions go through a jump table, whose default entries
load the library first; `humblenet_shutdown` unloads it again. -/
namespace HumbleNet.Loader

/-! ### The code -/

/-- The functions of `HumbleNet_API.json` that have an entry in the jump table. -/
inductive Proc where
  | version | init | shutdown | getError | setError | clearError | setHint | getHint
  | p2pSupported | p2pIsInitialized | p2pInit | p2pGetMyPeerId | p2pRegisterAlias
  | p2pUnregisterAlias | p2pVirtualPeerForAlias | p2pSendto | p2pRecvfrom | p2pPeek
  | p2pDisconnect | p2pWait | p2pSelect
  deriving DecidableEq, Repr

def Proc.name : Proc → String
  | version => "humblenet_version"
  | init => "humblenet_init"
  | shutdown => "humblenet_shutdown"
  | getError => "humblenet_get_error"
  | setError => "humblenet_set_error"
  | clearError => "humblenet_clear_error"
  | setHint => "humblenet_set_hint"
  | getHint => "humblenet_get_hint"
  | p2pSupported => "humblenet_p2p_supported"
  | p2pIsInitialized => "humblenet_p2p_is_initialized"
  | p2pInit => "humblenet_p2p_init"
  | p2pGetMyPeerId => "humblenet_p2p_get_my_peer_id"
  | p2pRegisterAlias => "humblenet_p2p_register_alias"
  | p2pUnregisterAlias => "humblenet_p2p_unregister_alias"
  | p2pVirtualPeerForAlias => "humblenet_p2p_virtual_peer_for_alias"
  | p2pSendto => "humblenet_p2p_sendto"
  | p2pRecvfrom => "humblenet_p2p_recvfrom"
  | p2pPeek => "humblenet_p2p_peek"
  | p2pDisconnect => "humblenet_p2p_disconnect"
  | p2pWait => "humblenet_p2p_wait"
  | p2pSelect => "humblenet_p2p_select"

def procs : List Proc :=
  [.version, .init, .shutdown, .getError, .setError, .clearError, .setHint, .getHint,
    .p2pSupported, .p2pIsInitialized, .p2pInit, .p2pGetMyPeerId, .p2pRegisterAlias,
    .p2pUnregisterAlias, .p2pVirtualPeerForAlias, .p2pSendto, .p2pRecvfrom, .p2pPeek,
    .p2pDisconnect, .p2pWait, .p2pSelect]

abbrev Handle := Nat
abbrev Address := Nat
abbrev Path := List Char

inductive LinkEvent where
  | opened (path : Path) (handle : Option Handle)
  | looked (handle : Handle) (fn : Proc) (symbol : Option Address)
  | closed (handle : Handle)
  | ran (fn : Proc) (address : Address)

abbrev Log := List LinkEvent

/-- The dynamic linker, whose answers may depend on all that has happened; `stray` is the byte
that `back()` finds for an empty string. -/
structure Linker where
  dlopen : Log → Path → Option Handle
  dlsym : Log → Handle → Proc → Option Address
  dlerror : Log → String
  dladdr : Log → Option Path
  stray : Char

inductive Entry where
  | default
  | real (address : Address)
  deriving DecidableEq

structure State where
  jumpTable : Proc → Entry
  dllHandle : Option Handle
  error : Option String
  log : Log

def State.initial : State := ⟨fun _ => .default, none, none, []⟩

def humblenetLibrary : Path := "libhumblenet.so".toList

section code

variable (linker : Linker)

def loadObject (path : Path) (s : State) : State :=
  let handle := linker.dlopen s.log path
  { s with
    dllHandle := handle
    error := if handle = none then some (linker.dlerror s.log) else s.error
    log := .opened path handle :: s.log }

def unloadLibrary (s : State) : State :=
  { s with
    jumpTable := fun _ => .default
    dllHandle := none
    log :=
      match s.dllHandle with
      | some handle => .closed handle :: s.log
      | none => s.log }

def loadFunctions (handle : Handle) : List Proc → State → State × Bool
  | [], s => ({ s with error := none }, true)
  | fn :: rest, s =>
    match linker.dlsym s.log handle fn with
    | some procHandle =>
      loadFunctions handle rest { s with
        jumpTable := fun f => if f = fn then .real procHandle else s.jumpTable f
        log := .looked handle fn (some procHandle) :: s.log }
    | none =>
      -- the error of `LoadFunction` is written over
      ({ unloadLibrary { s with log := .looked handle fn none :: s.log } with
        error := some ("Failed to load symbol: " ++ fn.name) }, false)

def overridePath (override : Path) : Path :=
  let last := override.getLast?.getD linker.stray
  (if last ≠ '/' ∧ last ≠ '\\' then override ++ ['/'] else override) ++ humblenetLibrary

/-- The library beside the program or library that the loader is part of. -/
def besidePath (file : Path) : Option Path :=
  match file.reverse.dropWhile (· ≠ '/') with
  | [] => none
  | _ :: directory => some (directory.reverse ++ '/' :: humblenetLibrary)

def tryOverride (override : Option Path) (s : State) : State :=
  match override with
  | some path => loadObject linker (overridePath linker path) s
  | none => s

def tryPlain (s : State) : State :=
  if s.dllHandle = none then loadObject linker humblenetLibrary s else s

def tryBeside (s : State) : State :=
  if s.dllHandle = none then
    match (linker.dladdr s.log).bind besidePath with
    | some path => loadObject linker path s
    | none => s
  else s

def loadLibrary (override : Option Path) (s : State) : State × Bool :=
  if s.dllHandle ≠ none then (s, true)
  else
    let s := tryBeside linker (tryPlain linker (tryOverride linker override s))
    match s.dllHandle with
    | some handle => loadFunctions linker handle procs s
    | none => ({ s with error := some "Failed to load humblenet library" }, false)

inductive Reply where
  | ran (address : Address)
  | text (error : Option String)
  | nothing
  | zero
  | loaded (ok : Bool)

def State.ran (s : State) (fn : Proc) (address : Address) : State × Reply :=
  ({ s with log := .ran fn address :: s.log }, .ran address)

/-- `fn_DEFAULT`, where `error` is the argument of `humblenet_set_error`; `none` is a default
entry that goes on calling itself. -/
def callDefault (fn : Proc) (error : Option String) (s : State) : Option (State × Reply) :=
  match fn with
  | .getError => some (s, .text s.error)
  | .setError => some ({ s with error := error }, .nothing)
  | .clearError => some ({ s with error := none }, .nothing)
  | fn =>
    let s := (loadLibrary linker none s).1
    if s.dllHandle ≠ none then
      match s.jumpTable fn with
      | .real address => some (s.ran fn address)
      | .default => none
    else some (s, .zero)

def jump (fn : Proc) (error : Option String) (s : State) : Option (State × Reply) :=
  match s.jumpTable fn with
  | .real address => some (s.ran fn address)
  | .default => callDefault linker fn error s

inductive Call where
  | loaderInit (path : Option Path)
  | shutdown
  | api (fn : Proc) (other : fn ≠ .shutdown) (error : Option String)

def call (s : State) : Call → Option (State × Reply)
  | .loaderInit path =>
    let (s, ok) := loadLibrary linker path s
    some (s, .loaded ok)
  | .shutdown => (jump linker .shutdown none s).map fun r => (unloadLibrary r.1, .nothing)
  | .api fn _ error => jump linker fn error s

def run : State → List Call → Option (State × List Reply)
  | s, [] => some (s, [])
  | s, c :: calls =>
    (call linker s c).bind fun r => (run r.1 calls).map fun r' => (r'.1, r.2 :: r'.2)

end code

/-! ### What it keeps -/

def current : Log → Option Handle
  | [] => none
  | .opened _ handle :: _ => handle
  | .closed _ :: _ => none
  | _ :: past => current past

def symbol (fn : Proc) : Log → Option Address
  | [] => none
  | .opened _ _ :: _ => none
  | .looked _ f address :: past => if f = fn then address else symbol fn past
  | _ :: past => symbol fn past

/-- One library at a time, closed as the one that is open; functions are looked up in it, and run
where they were found in it, once all of them have been found. -/
def Disciplined : Log → Prop
  | [] => True
  | .opened _ _ :: past => current past = none ∧ Disciplined past
  | .closed handle :: past => current past = some handle ∧ Disciplined past
  | .looked handle _ _ :: past => current past = some handle ∧ Disciplined past
  | .ran fn address :: past =>
    current past ≠ none ∧ symbol fn past = some address ∧ (∀ f, symbol f past ≠ none) ∧
      Disciplined past

def opens (handle : Handle) : Log → Nat
  | [] => 0
  | .opened _ (some h) :: past => opens handle past + if h = handle then 1 else 0
  | _ :: past => opens handle past

def closes (handle : Handle) : Log → Nat
  | [] => 0
  | .closed h :: past => closes handle past + if h = handle then 1 else 0
  | _ :: past => closes handle past

theorem balanced {log : Log} (disciplined : Disciplined log) (handle : Handle) :
    opens handle log = closes handle log + if current log = some handle then 1 else 0 := by
  induction log with
  | nil => simp [opens, closes, current]
  | cons event past ih =>
    cases event with
    | opened path opened =>
      obtain ⟨none_open, before⟩ := disciplined
      have past_balance := ih before
      cases opened with
      | none => simpa [opens, closes, current, none_open] using past_balance
      | some h => simp_all [opens, closes, current]
    | looked h fn address => exact ih disciplined.2
    | closed h =>
      obtain ⟨open_now, before⟩ := disciplined
      have past_balance := ih before
      rw [open_now] at past_balance
      simpa [opens, closes, current] using past_balance
    | ran fn address => exact ih disciplined.2.2.2

def Found (s : State) (fn : Proc) : Prop :=
  ∃ address, s.jumpTable fn = .real address ∧ symbol fn s.log = some address

/-- What holds between two calls: the table is of the library that is open, and whole. -/
structure Consistent (s : State) : Prop where
  disciplined : Disciplined s.log
  handle : current s.log = s.dllHandle
  unloaded : s.dllHandle = none → ∀ fn, s.jumpTable fn = .default
  loaded : s.dllHandle ≠ none → ∀ fn, Found s fn

section proofs

variable (linker : Linker) {s : State}

theorem mem_procs (fn : Proc) : fn ∈ procs := by cases fn <;> decide

theorem consistent_initial : Consistent .initial :=
  ⟨trivial, rfl, fun _ _ => rfl, fun loaded => absurd rfl loaded⟩

theorem consistent_unload (disciplined : Disciplined s.log) (handle : current s.log = s.dllHandle) :
    Consistent (unloadLibrary s) := by
  refine ⟨?_, ?_, fun _ _ => rfl, fun loaded => absurd rfl loaded⟩
  · unfold unloadLibrary
    split
    · rename_i h is
      exact ⟨handle.trans is, disciplined⟩
    · exact disciplined
  · unfold unloadLibrary
    dsimp only
    split
    · rfl
    · rename_i is
      exact handle.trans is

structure Searching (s : State) : Prop where
  disciplined : Disciplined s.log
  handle : current s.log = s.dllHandle
  table : ∀ fn, s.jumpTable fn = .default

theorem Searching.loadObject (searching : Searching s) (none_open : s.dllHandle = none)
    (path : Path) : Searching (loadObject linker path s) :=
  ⟨⟨searching.handle.trans none_open, searching.disciplined⟩, rfl, searching.table⟩

theorem Searching.tries (searching : Searching s) (none_open : s.dllHandle = none)
    (override : Option Path) :
    Searching (tryBeside linker (tryPlain linker (tryOverride linker override s))) := by
  have first : Searching (tryOverride linker override s) := by
    unfold tryOverride
    split
    · exact searching.loadObject linker none_open _
    · exact searching
  have second : Searching (tryPlain linker (tryOverride linker override s)) := by
    unfold tryPlain
    split
    · rename_i still
      exact first.loadObject linker still _
    · exact first
  unfold tryBeside
  split
  · rename_i still
    split
    · exact second.loadObject linker still _
    · exact second
  · exact second

theorem consistent_loadFunctions {handle : Handle} (rest : List Proc)
    (disciplined : Disciplined s.log) (is_open : current s.log = some handle)
    (held : s.dllHandle = some handle) (found : ∀ fn, fn ∉ rest → Found s fn) :
    Consistent (loadFunctions linker handle rest s).1 := by
  induction rest generalizing s with
  | nil =>
    exact ⟨disciplined, is_open.trans held.symm,
      fun none_open => absurd (held.symm.trans none_open) (Option.some_ne_none handle),
      fun _ fn => found fn List.not_mem_nil⟩
  | cons fn rest ih =>
    unfold loadFunctions
    split
    · rename_i address answer
      refine ih ⟨is_open, disciplined⟩ is_open held fun f left => ?_
      by_cases same : f = fn
      · subst same
        exact ⟨address, if_pos rfl, if_pos rfl⟩
      · obtain ⟨a, entry, place⟩ := found f (by
          rw [List.mem_cons, not_or]
          exact ⟨same, left⟩)
        exact ⟨a, (if_neg same).trans entry, (if_neg (Ne.symm same)).trans place⟩
    · have unloaded := consistent_unload
        (s := { s with log := .looked handle fn none :: s.log })
        ⟨is_open, disciplined⟩ (is_open.trans held.symm)
      exact ⟨unloaded.disciplined, unloaded.handle, unloaded.unloaded, unloaded.loaded⟩

theorem consistent_loadLibrary (consistent : Consistent s) (override : Option Path) :
    Consistent (loadLibrary linker override s).1 := by
  unfold loadLibrary
  split
  · exact consistent
  · rename_i unloaded
    have none_open : s.dllHandle = none := not_not.mp unloaded
    have searching : Searching s :=
      ⟨consistent.disciplined, consistent.handle, consistent.unloaded none_open⟩
    have tried := searching.tries linker none_open override
    dsimp only
    split
    · rename_i handle held
      exact consistent_loadFunctions linker procs tried.disciplined (tried.handle.trans held) held
        fun fn missing => absurd (mem_procs fn) missing
    · rename_i none_found
      exact ⟨tried.disciplined, tried.handle, fun _ => tried.table,
        fun loaded => absurd none_found loaded⟩

theorem consistent_ran (consistent : Consistent s) {fn : Proc} {address : Address}
    (entry : s.jumpTable fn = .real address) : Consistent (s.ran fn address).1 := by
  have loaded : s.dllHandle ≠ none := by
    intro none_open
    rw [consistent.unloaded none_open] at entry
    cases entry
  have all : ∀ f, symbol f s.log ≠ none := by
    intro f
    obtain ⟨a, -, place⟩ := consistent.loaded loaded f
    simp [place]
  obtain ⟨a, same, place⟩ := consistent.loaded loaded fn
  rw [entry] at same
  cases same
  exact ⟨⟨consistent.handle ▸ loaded, place, all, consistent.disciplined⟩, consistent.handle,
    consistent.unloaded, consistent.loaded⟩

theorem consistent_callDefault (consistent : Consistent s) (fn : Proc) (error : Option String) :
    ∃ r, callDefault linker fn error s = some r ∧ Consistent r.1 := by
  have loaded := consistent_loadLibrary linker consistent none
  have goes_on : ∃ r, (if (loadLibrary linker none s).1.dllHandle ≠ none then
      match (loadLibrary linker none s).1.jumpTable fn with
      | .real address => some ((loadLibrary linker none s).1.ran fn address)
      | .default => none
    else some ((loadLibrary linker none s).1, .zero)) = some r ∧ Consistent r.1 := by
    split
    · rename_i held
      obtain ⟨address, entry, -⟩ := loaded.loaded held fn
      rw [entry]
      exact ⟨_, rfl, consistent_ran loaded entry⟩
    · exact ⟨_, rfl, loaded⟩
  have with_error : ∀ e, Consistent { s with error := e } := fun _ =>
    ⟨consistent.disciplined, consistent.handle, consistent.unloaded, consistent.loaded⟩
  unfold callDefault
  split
  · exact ⟨_, rfl, consistent⟩
  · exact ⟨_, rfl, with_error error⟩
  · exact ⟨_, rfl, with_error none⟩
  · exact goes_on

theorem consistent_jump (consistent : Consistent s) (fn : Proc) (error : Option String) :
    ∃ r, jump linker fn error s = some r ∧ Consistent r.1 := by
  unfold jump
  split
  · rename_i address entry
    exact ⟨_, rfl, consistent_ran consistent entry⟩
  · exact consistent_callDefault linker consistent fn error

theorem consistent_call (consistent : Consistent s) (c : Call) :
    ∃ r, call linker s c = some r ∧ Consistent r.1 ∧ (c = .shutdown → r.1.dllHandle = none) := by
  cases c with
  | loaderInit path =>
    exact ⟨_, rfl, consistent_loadLibrary linker consistent path, fun is => by cases is⟩
  | shutdown =>
    obtain ⟨r, jumped, after⟩ := consistent_jump linker consistent .shutdown none
    refine ⟨(unloadLibrary r.1, .nothing), ?_, ?_, fun _ => rfl⟩
    · rw [call, jumped]
      rfl
    · exact consistent_unload after.disciplined after.handle
  | api fn other error =>
    obtain ⟨r, jumped, after⟩ := consistent_jump linker consistent fn error
    exact ⟨r, jumped, after, fun is => by cases is⟩

theorem consistent_run (consistent : Consistent s) (calls : List Call) :
    ∃ r, run linker s calls = some r ∧ Consistent r.1 ∧
      (calls.getLast? = some .shutdown → r.1.dllHandle = none) := by
  induction calls generalizing s with
  | nil => exact ⟨_, rfl, consistent, fun is => by cases is⟩
  | cons c calls ih =>
    obtain ⟨r, called, next, down⟩ := consistent_call linker consistent c
    obtain ⟨r', later, last, last_down⟩ := ih next
    refine ⟨(r'.1, r.2 :: r'.2), ?_, last, fun is => ?_⟩
    · rw [run, called, Option.bind_some, later]
      rfl
    · cases calls with
      | nil =>
        cases later
        exact down (by simpa using is)
      | cons c' calls => exact last_down (by simpa using is)

end proofs

/-- However the calls of a program come and whatever the dynamic linker answers: no call is lost
in the loader, the table is whole and of the library that is open or has no entry of any library,
only functions of the library that is open are run, every library is closed as often as it was
opened but for the one that is open, and none is after `humblenet_shutdown`. -/
theorem library_discipline (linker : Linker) (calls : List Call) :
    ∃ s replies, run linker .initial calls = some (s, replies) ∧ Consistent s ∧
      (∀ handle, opens handle s.log =
        closes handle s.log + if s.dllHandle = some handle then 1 else 0) ∧
      (calls.getLast? = some .shutdown → s.dllHandle = none) := by
  obtain ⟨r, whole, consistent, down⟩ := consistent_run linker consistent_initial calls
  refine ⟨r.1, r.2, whole, consistent, fun handle => ?_, down⟩
  rw [balanced consistent.disciplined, consistent.handle]

end HumbleNet.Loader

import HumbleNet.Client.Conduct
import HumbleNet.Client.Runs

/-! Whole runs of a client: what every action keeps holds whenever the lock is free. -/
namespace HumbleNet.Client

open Guarded

variable (env : Externals) {ok : Point → Tables → Prop}

theorem evolves_keeps {I : Tables → Prop} {scope : Scope}
    (keeps : ∀ s t, I s → Does ok scope s t → I t) {s t : Tables}
    (evolves : Evolves ok scope s t)
    (inv : I s) : I t := by
  induction evolves with
  | refl => exact inv
  | tail _ does ih => exact keeps _ _ ih does

/-- An invariant of the tables, kept by every action, as a discipline of the programs. -/
def discipline (ok : Point → Tables → Prop) (I : Tables → Prop)
    (keeps : ∀ scope s t, I s → Does ok scope s t → I t) :
    Discipline (setting env ok) where
  terms tag := terms ok tag.scope
  inv s := I s.toTables
  exclusive tag := tag = .websocket
  idle _ _ := True
  allowed_eq _ := rfl
  alone := by
    rintro tag tags s x ⟨event, _, _, alone⟩ ex
    exact alone ex
  keeps tag _ _ inv evolves := evolves_keeps (keeps tag.scope) evolves inv
  rely_refl _ _ _ := trivial
  rely_trans _ _ _ _ _ _ := trivial
  others _ _ _ _ _ _ _ _ := trivial
  idle_others _ _ _ _ _ _ _ _ := trivial
  idle_shared _ _ _ := trivial
  entry := by
    rintro tag tags s x ⟨event, rfl, rfl, _⟩ _ _
    exact acts_handle env event

/-- What an invariant says of a configuration: it holds of a running one, and explains
the fault of a crashed one. -/
def Kept (ok : Point → Tables → Prop) (I : Tables → Prop) :
    Config Caller State Fault Query Query.Answer Unit → Prop
  | .running pool => I pool.state.toTables
  | .crashed _ e _ => ∃ t, I t ∧ Blame ok e t

theorem kept_of_run {I : Tables → Prop} (init : I .initial)
    (keeps : ∀ scope s t, I s → Does ok scope s t → I t)
    {c : Config Caller State Fault Query Query.Answer Unit} (run : Run env ok c) :
    Kept ok I c := by
  have good := (discipline env ok I keeps).good_of_reach
    (fun s (start : s = .initial) => ⟨start ▸ init, fun _ => trivial⟩) run
  cases c with
  | running pool => exact good.inv
  | crashed tag e s =>
    obtain ⟨u, inv, blame⟩ := good
    exact ⟨u.toTables, inv, blame⟩

theorem evolves_of_step {pool pool' : Pool Caller State Fault Query Query.Answer Unit}
    (run : Run env ok (.running pool)) (step : (setting env ok).Step pool (.running pool')) :
    ∃ scope, Evolves ok scope pool.state.toTables pool'.state.toTables := by
  have good := (discipline env ok (fun _ => True) fun _ _ _ _ _ => trivial).good_of_reach
    (fun _ _ => ⟨trivial, fun _ => trivial⟩) run
  obtain ⟨tag, evolves⟩ := Discipline.guar_of_step _ good step
  exact ⟨tag.scope, evolves⟩

theorem lookup_updateDatagram {t : Tables} {conn k : ConnPtr}
    {f : DatagramConnection → DatagramConnection} (same : ∀ dg, (f dg).conn = dg.conn)
    {dg : DatagramConnection} (h : (t.updateDatagram conn f).datagrams.lookup k = some dg) :
    ∃ old, t.datagrams.lookup k = some old ∧ old.conn = dg.conn := by
  obtain ⟨old, there, rfl⟩ := StdMap.lookup_modify_some.mp h
  refine ⟨old, there, ?_⟩
  split
  · exact (same old).symm
  · rfl

/-! Computed runs: every call succeeds at once, the clock stands still. -/

def freshKey {V : Type} (m : StdMap Nat V) : Nat := m.keys.foldr max 0 + 1

theorem lt_freshKey {V : Type} {m : StdMap Nat V} {k : Nat} (mem : k ∈ m) : k < freshKey m := by
  have bound : ∀ (keys : List Nat) (k : Nat), k ∈ keys → k ≤ keys.foldr max 0 := by
    intro keys k hk
    induction keys with
    | nil => cases hk
    | cons key rest ih =>
      rcases List.mem_cons.mp hk with rfl | hk
      · exact le_max_left _ _
      · exact le_trans (ih hk) (le_max_right _ _)
  exact Nat.lt_succ_of_le (bound m.keys k (AList.mem_keys.mpr mem))

theorem freshKey_not_mem {V : Type} (m : StdMap Nat V) : freshKey m ∉ m :=
  fun mem => lt_irrefl _ (lt_freshKey mem)

def answers (ok : Point → Tables → Prop) [∀ p t, Decidable (ok p t)] :
    (q : Query) → State → State → Option q.Answer
  | .newConnection, _, t => some (freshKey t.heap)
  | .newInternalSocket, _, t => some (freshKey t.sockets)
  | .order elements, _, _ => some elements
  | .malloc _, _, _ => some true
  | .padding, _, _ => some 0
  | .sysMilliseconds, _, _ => some 0
  | .time, _, _ => some 0
  | .platform, _, _ => some []
  | .pause, _, _ => some ()
  | .internalDeinit, _, _ => some ()
  | .libwebrtcCreateContext, _, _ => some true
  | .libwebsocketClientConnect _, _, _ => some (some 1)
  | .libwebsocketWrite _ buf, _, _ => some buf.length
  | .libwebrtcCreateConnection, _, _ => some ()
  | .libwebrtcCreateOffer _, _, _ => some true
  | .libwebrtcSetOffer _ _, _, _ => some true
  | .libwebrtcSetAnswer _ _, _, _ => some true
  | .libwebrtcAddIceCandidate _ _, _, _ => some ()
  | .libwebrtcCreateChannel _ _, _, _ => some true
  | .libwebrtcCloseConnection _, _, _ => some ()
  | .libwebrtcWrite _ buf, _, _ => some buf.length
  | .mark point, s, _ => if ok point s.toTables then some () else none

theorem answers_allowed [∀ p t, Decidable (ok p t)] (q : Query) (s t : State) (a : q.Answer)
    (h : answers ok q s t = some a) : (setting env ok).allowed q s a t := by
  constructor
  · cases q with
    | newConnection =>
      cases h
      exact freshKey_not_mem t.heap
    | newInternalSocket =>
      cases h
      exact freshKey_not_mem t.sockets
    | order elements =>
      cases h
      exact List.Perm.refl _
    | libwebsocketWrite wsi buf =>
      cases h
      exact ⟨le_trans (Int.neg_nonpos_of_nonneg Int.one_nonneg) (Int.natCast_nonneg _), le_refl _⟩
    | libwebrtcWrite socket buf =>
      cases h
      exact ⟨le_trans (Int.neg_nonpos_of_nonneg Int.one_nonneg) (Int.natCast_nonneg _), le_refl _⟩
    | _ => trivial
  · rintro point rfl
    by_cases passed : ok point s.toTables
    · exact passed
    · simp only [answers, if_neg passed, reduceCtorEq] at h

/-- The configuration after some events, each run to its end. -/
def history (ok : Point → Tables → Prop) [∀ p t, Decidable (ok p t)] (events : List Event) :
    Option (Config Caller State Fault Query Query.Answer Unit) :=
  events.foldl (fun c event => c.bind fun c =>
    c.perform (answers ok) 16 event.caller (handle env event)) (some (.running ⟨.initial, []⟩))

theorem reach_history [∀ p t, Decidable (ok p t)]
    {E : Setting Caller State Fault Query Query.Answer Unit}
    (may : ∀ q s a t, (setting env ok).allowed q s a t → E.allowed q s a t)
    (begins : ∀ event s, E.begins (Event.caller event) [] s (handle env event))
    {events : List Event} {c : Config Caller State Fault Query Query.Answer Unit}
    (h : history env ok events = some c) : E.Reach (fun s => s = .initial) c := by
  have answered : ∀ q s t a, answers ok q s t = some a → E.allowed q s a t :=
    fun q s t a answer => may q s a t (answers_allowed env q s t a answer)
  have fold : ∀ (events : List Event) (o : Option (Config Caller State Fault Query _ Unit)),
      (∀ c, o = some c → E.Reach (fun s => s = .initial) c) → ∀ c,
      events.foldl (fun c event => c.bind fun c =>
        c.perform (answers ok) 16 event.caller (handle env event)) o = some c →
      E.Reach (fun s => s = .initial) c := by
    intro events
    induction events with
    | nil => exact fun _ reach c h => reach c h
    | cons event rest ih =>
      intro o reach c h
      apply ih _ _ c h
      intro c' h'
      obtain ⟨d, hd, performed⟩ := Option.bind_eq_some_iff.mp h'
      exact Setting.Reach.perform answered (begins event) (reach d hd) performed
  apply fold events _ _ c h
  intro c start
  cases start
  exact .start rfl

theorem run_history [∀ p t, Decidable (ok p t)] {events : List Event}
    {c : Config Caller State Fault Query Query.Answer Unit}
    (h : history env ok events = some c) : Run env ok c :=
  reach_history env (fun _ _ _ _ h => h)
    (fun event _ => ⟨event, rfl, rfl, fun _ => List.not_mem_nil⟩) h

def beginning (ok : Point → Tables → Prop) [∀ p t, Decidable (ok p t)] (event : Event)
    (c : Config Caller State Fault Query Query.Answer Unit) :
    Option (Config Caller State Fault Query Query.Answer Unit) :=
  c.perform (answers ok) 0 event.caller (handle env event)

theorem run_beginning [∀ p t, Decidable (ok p t)] {event : Event}
    {c c' : Config Caller State Fault Query Query.Answer Unit} (run : Run env ok c)
    (h : beginning env ok event c = some c') : Run env ok c' :=
  Setting.Reach.perform (answers_allowed env)
    (fun _ => ⟨event, rfl, rfl, fun _ => List.not_mem_nil⟩) run h

def meanwhile (ok : Point → Tables → Prop) [∀ p t, Decidable (ok p t)] (event : Event)
    (c : Config Caller State Fault Query Query.Answer Unit) :
    Option (Config Caller State Fault Query Query.Answer Unit) :=
  c.enter (answers ok) event.caller (handle env event)

theorem run_meanwhile [∀ p t, Decidable (ok p t)] {event : Event}
    (shared : event.caller ≠ .websocket)
    {c c' : Config Caller State Fault Query Query.Answer Unit} (run : Run env ok c)
    (h : meanwhile env ok event c = some c') : Run env ok c' :=
  Setting.Reach.enter (answers_allowed env)
    (fun _ _ => ⟨event, rfl, rfl, fun websocket => absurd websocket shared⟩) run h

def reading (getMessage : Bytes → Message) : Externals where
  sizeBits := 64
  verifyMessageBuffer _ := true
  getMessage := getMessage
  finish _ := Body.empty
  sha1 _ := Digest.zero

def welcome : Externals := reading fun _ => .helloClient (some ⟨5, none, none⟩)

def offerThenRelay : Externals :=
  reading fun buff =>
    if buff = [] then .p2pOffer (some ⟨9, 0, some []⟩) else .p2pRelayData (some ⟨9, some [7]⟩)

def resolver : Externals :=
  reading fun buff =>
    if buff = [] then .helloClient (some ⟨5, none, none⟩) else .aliasResolved (some ⟨[65], 9⟩)

def Event.signal (buff : Bytes) : Event := .signalData 1 (p2pMessageFrame buff) (fun _ => []) 1

def introduction : List Event :=
  [.init (some []) (some []) (some []) none, .signal []]

abbrev Anyhow : Point → Tables → Prop := fun _ _ => True

def outcome {α : Type} (x : ClientM α) (s : State) : Option (ClientLog × α × State) :=
  (x s).answered fun q s => answers Anyhow q s s

theorem runs_of_outcome {α : Type} {x : ClientM α} {s t : State} {log : ClientLog} {a : α}
    (h : outcome x s = some (log, a, t)) : Runs x s log a t := by
  have may : ∀ (q : Query) (s : State) (a : q.Answer), answers Anyhow q s s = some a →
      q.Allowed s a s :=
    fun q s a answer => (answers_allowed welcome q s s a answer).1
  exact Course.ends_of_answered may h

end HumbleNet.Client

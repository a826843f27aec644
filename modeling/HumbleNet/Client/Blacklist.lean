import HumbleNet.Client.Runs

/-! How long a peer stays on the blacklist. The table keeps the time of one offence for each
peer, the first since its entry was dropped, and drops an entry when it is asked for the peer
after the entry has expired. -/
namespace HumbleNet.Client

open Guarded

def atTime (now : UInt64) : (q : Query) → State → q.Answer → State → Prop
  | .sysMilliseconds, _, answer, _ => answer = now
  | q, s, answer, t => q.Allowed s answer t

inductive BlacklistCall where
  | blacklistPeer (peer : PeerId) (now : UInt64)
  | isPeerBlacklisted (peer : PeerId) (now : UInt64) (answer : Bool)
  deriving DecidableEq, Repr

def BlacklistCall.now : BlacklistCall → UInt64
  | .blacklistPeer _ now => now
  | .isPeerBlacklisted _ now _ => now

inductive BlacklistStep : State → BlacklistCall → State → Prop where
  | blacklistPeer {s t : State} {peer : PeerId} {now : UInt64} {log : ClientLog}
    (ends : Ends (atTime now) (blacklistPeer peer) s log () t) :
    BlacklistStep s (.blacklistPeer peer now) t
  | isPeerBlacklisted {s t : State} {peer : PeerId} {now : UInt64} {log : ClientLog}
    {answer : Bool} (ends : Ends (atTime now) (isPeerBlacklisted peer) s log answer t) :
    BlacklistStep s (.isPeerBlacklisted peer now answer) t

/-- From an empty blacklist, calls under a clock that does not go back, newest first. -/
inductive BlacklistCalls : List BlacklistCall → State → Prop where
  | start {s : State} (clear : s.peerBlacklist = ∅) : BlacklistCalls [] s
  | next {calls : List BlacklistCall} {s t : State} {call : BlacklistCall}
    (before : BlacklistCalls calls s) (later : ∀ c ∈ calls, c.now ≤ call.now)
    (taken : BlacklistStep s call t) : BlacklistCalls (call :: calls) t

/-- The peer offended, less than five seconds before `now`. -/
def Offended (peer : PeerId) (now : UInt64) (calls : List BlacklistCall) : Prop :=
  ∃ offence, .blacklistPeer peer offence ∈ calls ∧ now.toNat < offence.toNat + 5000

def lastOffence (peer : PeerId) : List BlacklistCall → Option UInt64
  | [] => none
  | .blacklistPeer other now :: calls =>
    if other = peer then some now else lastOffence peer calls
  | .isPeerBlacklisted _ _ _ :: calls => lastOffence peer calls

/-- The offence that counts: the first one since an expired one was asked about. -/
def countedOffence (peer : PeerId) : List BlacklistCall → Option UInt64
  | [] => none
  | .blacklistPeer other now :: calls =>
    if other = peer then some ((countedOffence peer calls).getD now)
    else countedOffence peer calls
  | .isPeerBlacklisted other now _ :: calls =>
    if other = peer then
      (countedOffence peer calls).filter fun offence => decide (now < offence + 5000)
    else countedOffence peer calls

/-- What counts and what happened last have not come apart: while an offence counts, it or the
last one is less than five seconds old; when none counts, the last one is older. -/
def InStep (peer : PeerId) (now : UInt64) (calls : List BlacklistCall) : Prop :=
  match countedOffence peer calls with
  | some offence => now < offence + 5000 ∨
      ∃ last ∈ lastOffence peer calls, now.toNat < last.toNat + 5000
  | none => ∀ last ∈ lastOffence peer calls, last.toNat + 5000 ≤ now.toNat

section

variable {s t : State} {log : ClientLog} {peer : PeerId} {now : UInt64}

theorem ends_blacklistPeer {u : Unit} : Ends (atTime now) (blacklistPeer peer) s log u t ↔
    log = [⟨.sysMilliseconds, now⟩] ∧
      t = { s with peerBlacklist := StdMap.emplace peer (now + 5000) s.peerBlacklist } := by
  unfold blacklistPeer
  constructor
  · intro ends
    obtain ⟨_, l, rfl, rest, rfl⟩ := ends_ask_bind.mp ends
    obtain ⟨rfl, rfl⟩ := ends_modify.mp rest
    exact ⟨rfl, rfl⟩
  · rintro ⟨rfl, rfl⟩
    exact ends_ask_bind.mpr ⟨now, [], rfl, ends_modify.mpr ⟨rfl, rfl⟩, rfl⟩

theorem ends_isPeerBlacklisted_absent {answer : Bool}
    (absent : s.peerBlacklist.lookup peer = none) :
    Ends (atTime now) (isPeerBlacklisted peer) s log answer t ↔
      log = [] ∧ answer = false ∧ t = s := by
  unfold isPeerBlacklisted
  simp only [ends_get_bind, absent, ends_pure]

theorem ends_isPeerBlacklisted_present {answer : Bool} {till : UInt64}
    (there : s.peerBlacklist.lookup peer = some till) :
    Ends (atTime now) (isPeerBlacklisted peer) s log answer t ↔
      log = [⟨.sysMilliseconds, now⟩] ∧ answer = true ∧
        t = if till ≤ now then { s with peerBlacklist := s.peerBlacklist.erase peer } else s := by
  unfold isPeerBlacklisted
  simp only [ends_get_bind, there]
  constructor
  · intro ends
    obtain ⟨_, l, rfl, rest, rfl⟩ := ends_ask_bind.mp ends
    unfold doWhen at rest
    split at rest
    · change Ends _ (pure true) { s with peerBlacklist := s.peerBlacklist.erase peer } _ _ _ at rest
      obtain ⟨rfl, rfl, rfl⟩ := ends_pure.mp rest
      exact ⟨rfl, rfl, (if_pos ‹_›).symm⟩
    · obtain ⟨rfl, rfl, rfl⟩ := ends_pure.mp rest
      exact ⟨rfl, rfl, (if_neg ‹_›).symm⟩
  · rintro ⟨rfl, rfl, rfl⟩
    apply ends_ask_bind.mpr
    refine ⟨now, [], rfl, ?_, rfl⟩
    unfold doWhen
    split
    · change Ends _ (pure true) { s with peerBlacklist := s.peerBlacklist.erase peer } _ _ _
      exact ends_pure.mpr ⟨rfl, rfl, rfl⟩
    · exact ends_pure.mpr ⟨rfl, rfl, rfl⟩

theorem isPeerBlacklisted_ends : ∃ answer log t,
    Ends (atTime now) (isPeerBlacklisted peer) s log answer t := by
  cases here : s.peerBlacklist.lookup peer with
  | none => exact ⟨_, _, _, (ends_isPeerBlacklisted_absent here).mpr ⟨rfl, rfl, rfl⟩⟩
  | some till => exact ⟨_, _, _, (ends_isPeerBlacklisted_present here).mpr ⟨rfl, rfl, rfl⟩⟩

theorem isPeerBlacklisted_answer {answer : Bool}
    (ends : Ends (atTime now) (isPeerBlacklisted peer) s log answer t) :
    answer = (s.peerBlacklist.lookup peer).isSome := by
  cases here : s.peerBlacklist.lookup peer with
  | none =>
    obtain ⟨_, rfl, _⟩ := (ends_isPeerBlacklisted_absent here).mp ends
    rfl
  | some till =>
    obtain ⟨_, rfl, _⟩ := (ends_isPeerBlacklisted_present here).mp ends
    rfl

theorem isPeerBlacklisted_table {answer : Bool} {other : PeerId}
    (ends : Ends (atTime now) (isPeerBlacklisted other) s log answer t) :
    t.peerBlacklist.lookup peer =
      if other = peer then (s.peerBlacklist.lookup peer).filter fun till => decide (now < till)
      else s.peerBlacklist.lookup peer := by
  cases here : s.peerBlacklist.lookup other with
  | none =>
    obtain ⟨_, _, rfl⟩ := (ends_isPeerBlacklisted_absent here).mp ends
    split
    · rename_i same
      rw [← same, here]
      rfl
    · rfl
  | some till =>
    obtain ⟨_, _, rfl⟩ := (ends_isPeerBlacklisted_present here).mp ends
    by_cases same : other = peer
    · subst same
      simp only [if_true, here]
      by_cases expired : till ≤ now
      · have gone : ¬ now < till := UInt64.not_lt.mpr expired
        simp only [if_pos expired, AList.lookup_erase, Option.filter_some, gone, decide_false,
          Bool.false_eq_true, if_false]
      · have stays : now < till := UInt64.not_le.mp expired
        simp only [if_neg expired, here, Option.filter_some, stays, decide_true, if_true]
    · simp only [if_neg same]
      split
      · exact AList.lookup_erase_ne (Ne.symm same)
      · rfl

end

section

variable {s : State} {calls : List BlacklistCall} {peer : PeerId} {now offence : UInt64}

theorem table_of_calls (made : BlacklistCalls calls s) :
    s.peerBlacklist.lookup peer = (countedOffence peer calls).map (· + 5000) := by
  induction made with
  | start clear =>
    rw [clear]
    rfl
  | @next calls s t call before later taken ih =>
    cases taken with
    | @blacklistPeer _ other offence _ ends =>
      obtain ⟨_, rfl⟩ := ends_blacklistPeer.mp ends
      rw [StdMap.lookup_emplace]
      simp only [countedOffence]
      by_cases same : other = peer
      · subst same
        simp only [if_true, ih, Option.map_some]
        cases countedOffence other calls <;> rfl
      · simp only [if_neg same, if_neg (Ne.symm same), ih]
    | isPeerBlacklisted ends =>
      rw [isPeerBlacklisted_table ends, ih]
      simp only [countedOffence]
      split
      · cases countedOffence peer calls with
        | none => rfl
        | some offence =>
          simp only [Option.map_some, Option.filter_some]
          split <;> rfl
      · rfl

theorem counted_mem (h : countedOffence peer calls = some offence) :
    .blacklistPeer peer offence ∈ calls := by
  induction calls generalizing offence with
  | nil => cases h
  | cons call calls ih =>
    cases call with
    | blacklistPeer other when =>
      simp only [countedOffence] at h
      split at h
      · rename_i same
        subst same
        cases before : countedOffence other calls with
        | none =>
          rw [before] at h
          cases h
          exact List.mem_cons_self
        | some first =>
          rw [before] at h
          cases h
          exact List.mem_cons_of_mem _ (ih before)
      · exact List.mem_cons_of_mem _ (ih h)
    | isPeerBlacklisted other when answer =>
      simp only [countedOffence] at h
      split at h
      · exact List.mem_cons_of_mem _ (ih (Option.filter_eq_some_iff.mp h).1)
      · exact List.mem_cons_of_mem _ (ih h)

theorem last_mem (h : lastOffence peer calls = some offence) :
    .blacklistPeer peer offence ∈ calls := by
  induction calls with
  | nil => cases h
  | cons call calls ih =>
    cases call with
    | blacklistPeer other when =>
      simp only [lastOffence] at h
      split at h
      · rename_i same
        subst same
        cases h
        exact List.mem_cons_self
      · exact List.mem_cons_of_mem _ (ih h)
    | isPeerBlacklisted other when answer => exact List.mem_cons_of_mem _ (ih h)

theorem le_last (made : BlacklistCalls calls s) (offended : .blacklistPeer peer offence ∈ calls) :
    ∃ last ∈ lastOffence peer calls, offence ≤ last := by
  induction made with
  | start clear => cases offended
  | @next calls s t call before later taken ih =>
    cases call with
    | blacklistPeer other when =>
      simp only [lastOffence]
      by_cases same : other = peer
      · subst same
        refine ⟨when, by simp, ?_⟩
        rcases List.mem_cons.mp offended with eq | earlier
        · cases eq
          exact UInt64.le_refl _
        · exact later _ earlier
      · rw [if_neg same]
        apply ih
        rcases List.mem_cons.mp offended with eq | earlier
        · cases eq
          exact absurd rfl same
        · exact earlier
    | isPeerBlacklisted other when answer =>
      apply ih
      rcases List.mem_cons.mp offended with eq | earlier
      · cases eq
      · exact earlier

theorem offended_iff (made : BlacklistCalls calls s) : Offended peer now calls ↔
    ∃ last ∈ lastOffence peer calls, now.toNat < last.toNat + 5000 := by
  constructor
  · rintro ⟨offence, offended, recent⟩
    obtain ⟨last, its, later⟩ := le_last made offended
    have : offence.toNat ≤ last.toNat := later
    exact ⟨last, its, by omega⟩
  · rintro ⟨last, its, recent⟩
    exact ⟨last, last_mem its, recent⟩

theorem recent_of_lt (h : now < offence + 5000) : now.toNat < offence.toNat + 5000 := by
  have lt : now.toNat < (offence + 5000).toNat := h
  rw [UInt64.toNat_add] at lt
  have := Nat.mod_le (offence.toNat + (5000 : UInt64).toNat) (2 ^ 64)
  have : (5000 : UInt64).toNat = 5000 := rfl
  omega

theorem blacklistPeer_calls (made : BlacklistCalls calls s) (later : ∀ c ∈ calls, c.now ≤ now) :
    BlacklistCalls (.blacklistPeer peer now :: calls)
      { s with peerBlacklist := StdMap.emplace peer (now + 5000) s.peerBlacklist } :=
  .next made later (.blacklistPeer (ends_blacklistPeer.mpr ⟨rfl, rfl⟩))

def blacklisting (peerBlacklist : StdMap PeerId UInt64) : State :=
  { State.initial with peerBlacklist := peerBlacklist }

/-- After any calls the next answer comes, and it tells whether the peer offended less than
five seconds ago exactly when what counts and what happened last have not come apart. -/
theorem blacklisted_iff_offended (made : BlacklistCalls calls s) :
    (∃ answer log t, Ends (atTime now) (isPeerBlacklisted peer) s log answer t) ∧
    ∀ answer log t, Ends (atTime now) (isPeerBlacklisted peer) s log answer t →
      ((answer = true ↔ Offended peer now calls) ↔ InStep peer now calls) := by
  refine ⟨isPeerBlacklisted_ends, fun answer log t ends => ?_⟩
  have answered := isPeerBlacklisted_answer ends
  rw [table_of_calls made, Option.isSome_map] at answered
  unfold InStep
  cases counted : countedOffence peer calls with
  | none =>
    rw [counted] at answered
    rw [answered, offended_iff made]
    simp
  | some offence =>
    rw [counted] at answered
    rw [answered, ← offended_iff made]
    constructor
    · exact fun right => Or.inr (right.mp rfl)
    · rintro (stays | recent)
      · exact ⟨fun _ => ⟨offence, counted_mem counted, recent_of_lt stays⟩, fun _ => rfl⟩
      · exact ⟨fun _ => recent, fun _ => rfl⟩

theorem blacklisted_within_five_seconds :
    (∃ answer log t, Ends (atTime 4999) (isPeerBlacklisted 7)
      (blacklisting (StdMap.emplace 7 5000 ∅)) log answer t) ∧
    ∀ answer log t, Ends (atTime 4999) (isPeerBlacklisted 7)
      (blacklisting (StdMap.emplace 7 5000 ∅)) log answer t →
      ((answer = true ↔ Offended 7 4999 [.blacklistPeer 7 0]) ↔
        InStep 7 4999 [.blacklistPeer 7 0]) :=
  blacklisted_iff_offended (s := blacklisting (StdMap.emplace 7 5000 ∅))
    (blacklistPeer_calls (s := blacklisting ∅) (.start rfl) (by simp))

/-- A peer that was not asked about in the five seconds is blacklisted when it is, and a
renewed offence is forgotten with the one before. -/
theorem blacklist_outlasts_and_forgets :
    (∃ calls s answer log t, BlacklistCalls calls s ∧ (∀ c ∈ calls, c.now ≤ 6000) ∧
      Ends (atTime 6000) (isPeerBlacklisted 7) s log answer t ∧
      answer = true ∧ ¬ Offended 7 6000 calls) ∧
    ∃ calls s answer log t, BlacklistCalls calls s ∧ (∀ c ∈ calls, c.now ≤ 7000) ∧
      Ends (atTime 7000) (isPeerBlacklisted 7) s log answer t ∧
      answer = false ∧ Offended 7 7000 calls := by
  have first : BlacklistCalls [.blacklistPeer 7 0] (blacklisting (StdMap.emplace 7 5000 ∅)) :=
    blacklistPeer_calls (s := blacklisting ∅) (.start rfl) (by simp)
  have renewed : BlacklistCalls [.blacklistPeer 7 4000, .blacklistPeer 7 0]
      (blacklisting (StdMap.emplace 7 9000 (StdMap.emplace 7 5000 ∅))) :=
    blacklistPeer_calls first (by simp [BlacklistCall.now])
  have asked : BlacklistCalls
      [.isPeerBlacklisted 7 6000 true, .blacklistPeer 7 4000, .blacklistPeer 7 0]
      (blacklisting ∅) := by
    apply BlacklistCalls.next renewed
    · simp [BlacklistCall.now]
    · have there : (blacklisting (StdMap.emplace 7 9000 (StdMap.emplace 7 5000 ∅))).peerBlacklist.lookup
          7 = some 5000 := rfl
      exact .isPeerBlacklisted ((ends_isPeerBlacklisted_present there).mpr ⟨rfl, rfl, rfl⟩)
  constructor
  · have there : (blacklisting (StdMap.emplace 7 5000 ∅)).peerBlacklist.lookup 7 = some 5000 := rfl
    refine ⟨_, _, _, _, _, first, ?_,
      (ends_isPeerBlacklisted_present there).mpr ⟨rfl, rfl, rfl⟩, rfl, ?_⟩
    · simp [BlacklistCall.now]
    · rintro ⟨offence, offended, recent⟩
      cases List.mem_singleton.mp offended
      exact absurd recent (by decide)
  · refine ⟨_, _, _, _, _, asked, ?_, (ends_isPeerBlacklisted_absent rfl).mpr ⟨rfl, rfl, rfl⟩,
      rfl, 4000, ?_, ?_⟩
    · simp [BlacklistCall.now]
    · simp
    · decide

end

end HumbleNet.Client

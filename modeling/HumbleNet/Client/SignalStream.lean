import HumbleNet.Client.Runs
import HumbleNet.Lib.Trace

/-! The stream of bytes that a client's signaling websocket accepts. A message is written at
once; nothing keeps what the websocket leaves of it, so the stream stays framed as long as
a frame that was accepted in part is the last. -/
namespace HumbleNet.Client

open Guarded

def acceptedOf : (q : Query) × q.Answer → Bytes
  | ⟨.libwebsocketWrite _ buf, retval⟩ => buf.take (Int.toNat retval)
  | _ => []

/-- The contract of `libwebsocket_write`, for a websocket that does not fail. -/
def Accepts : (q : Query) × q.Answer → Prop
  | ⟨.libwebsocketWrite _ buf, retval⟩ => (0 : Int) ≤ retval ∧ retval ≤ (buf.length : Int)
  | _ => True

def AcceptsPart : (q : Query) × q.Answer → Prop
  | ⟨.libwebsocketWrite _ buf, retval⟩ => (0 : Int) < retval ∧ retval < (buf.length : Int)
  | _ => False

/-- One use of the signaling connection; `other` stands for all that does not write. -/
inductive SignalAct where
  | send (msg : Message) (log : ClientLog) (sent : Bool)
  | writable (log : ClientLog)
  | other

def SignalAct.log : SignalAct → ClientLog
  | .send _ log _ => log
  | .writable log => log
  | .other => []

def SignalAct.accepted (act : SignalAct) : Bytes := act.log.flatMap acceptedOf

def P2PSignalConnection.outlet (conn : P2PSignalConnection) : Option Wsi × Bytes :=
  (conn.wsi, conn.sendBuf)

inductive SignalStep (env : Externals) (wsi : Wsi) : State → SignalAct → State → Prop where
  | send {s t : State} {msg : Message} {log : ClientLog} {sent : Bool}
    (ends : Runs (sendP2PMessage env msg) s log sent t) (accepts : ∀ call ∈ log, Accepts call) :
    SignalStep env wsi s (.send msg log sent) t
  | writable {s t : State} {log : ClientLog} {retval : Int}
    (ends : Runs (signalOnWritable wsi) s log retval t) (accepts : ∀ call ∈ log, Accepts call) :
    SignalStep env wsi s (.writable log) t
  | other {s t : State}
    (same : t.p2pConn = none ∨ t.p2pConn.map (·.outlet) = s.p2pConn.map (·.outlet)) :
    SignalStep env wsi s .other t

def SignalOpen (wsi : Wsi) (s : State) : Prop :=
  ∃ serial recvBuf, s.p2pConn = some ⟨serial, some wsi, recvBuf, []⟩

abbrev SignalRun (env : Externals) (wsi : Wsi) : List (State × SignalAct) → State → Prop :=
  Trace (SignalOpen wsi) (SignalStep env wsi)

def accepted : List (State × SignalAct) → Bytes
  | [] => []
  | (_, act) :: past => accepted past ++ act.accepted

def offered : List (State × SignalAct) → List Message
  | [] => []
  | (_, .send msg _ _) :: past => offered past ++ [msg]
  | _ :: past => offered past

def reportedSent : List (State × SignalAct) → List Message
  | [] => []
  | (_, .send msg _ sent) :: past => reportedSent past ++ if sent then [msg] else []
  | _ :: past => reportedSent past

/-- The accepted bytes are a prefix of complete frames, in the order of sending, and the
messages that were reported as sent are complete among them. -/
def Framed (env : Externals) (past : List (State × SignalAct)) : Prop :=
  ∃ kept, reportedSent past <+: kept ∧ kept.Sublist (offered past) ∧
    accepted past <+: kept.flatMap (frame env)

/-- Some frame was accepted in part. -/
def Broken (past : List (State × SignalAct)) : Prop :=
  ∃ m ∈ past, ∃ call ∈ m.2.log, AcceptsPart call

/-- Once a frame was accepted in part, nothing more is. -/
def Unbroken : List (State × SignalAct) → Prop
  | [] => True
  | m :: past => Unbroken past ∧ (Broken past → m.2.accepted = [])

section

variable {env : Externals} {wsi : Wsi} {s t : State} {act : SignalAct}
  {past : List (State × SignalAct)}

theorem sendP2PMessage_ends {msg : Message} {log : ClientLog} {sent : Bool}
    (ends : Runs (sendP2PMessage env msg) s log sent t) : t = s ∧
      ((log = [] ∧ sent = false) ∨ ∃ wsi retval,
        log = [⟨.libwebsocketWrite wsi (frame env msg), retval⟩] ∧
          sent = decide ((retval : Int) = (frame env msg).length)) := by
  simp only [sendP2PMessage, ends_get_bind] at ends
  split at ends
  · obtain ⟨rfl, rfl, rfl⟩ := ends_pure.mp ends
    exact ⟨rfl, Or.inl ⟨rfl, rfl⟩⟩
  · split at ends
    · obtain ⟨rfl, rfl, rfl⟩ := ends_pure.mp ends
      exact ⟨rfl, Or.inl ⟨rfl, rfl⟩⟩
    · rename_i wsi _
      obtain ⟨retval, l, _, rest, rfl⟩ := ends_unguarded_bind.mp ends
      obtain ⟨rfl, rfl, rfl⟩ := ends_pure.mp rest
      exact ⟨rfl, Or.inr ⟨wsi, retval, rfl, rfl⟩⟩

def Unbuffered (s : State) : Prop := ∀ conn, s.p2pConn = some conn → conn.sendBuf = []

theorem signalOnWritable_ends {log : ClientLog} {retval : Int} (unbuffered : Unbuffered s)
    (ends : Runs (signalOnWritable wsi) s log retval t) : log = [] ∧ t = s := by
  simp only [signalOnWritable, ends_get_bind] at ends
  split at ends
  · obtain ⟨rfl, _, rfl⟩ := ends_pure.mp ends
    exact ⟨rfl, rfl⟩
  · rename_i conn here
    split at ends
    · obtain ⟨rfl, _, rfl⟩ := ends_pure.mp ends
      exact ⟨rfl, rfl⟩
    · have empty : conn.sendBuf.isEmpty = true := by rw [unbuffered conn here, List.isEmpty_nil]
      rw [if_pos empty] at ends
      obtain ⟨rfl, _, rfl⟩ := ends_pure.mp ends
      exact ⟨rfl, rfl⟩

theorem step_unbuffered (step : SignalStep env wsi s act t) (unbuffered : Unbuffered s) :
    Unbuffered t := by
  cases step with
  | send ends accepts => exact (sendP2PMessage_ends ends).1 ▸ unbuffered
  | writable ends accepts => exact (signalOnWritable_ends unbuffered ends).2 ▸ unbuffered
  | other same =>
    intro conn here
    rcases same with gone | same
    · rw [gone] at here
      cases here
    · rw [here, Option.map_some, eq_comm, Option.map_eq_some_iff] at same
      obtain ⟨conn', before, outlet⟩ := same
      have sendBuf : conn'.sendBuf = conn.sendBuf := (Prod.mk.inj outlet).2
      rw [← sendBuf]
      exact unbuffered conn' before

theorem run_unbuffered (run : SignalRun env wsi past s) : Unbuffered s := by
  refine run.invariant (I := fun _ s => Unbuffered s) ?_ ?_
  · rintro s ⟨serial, recvBuf, here⟩ conn here'
    rw [here] at here'
    cases here'
    rfl
  · intro _ s act t _ unbuffered step
    exact step_unbuffered step unbuffered

def EndsWhole (env : Externals) (past : List (State × SignalAct)) : Prop :=
  accepted past = (reportedSent past).flatMap (frame env) ∧
    (reportedSent past).Sublist (offered past)

def EndsCut (env : Externals) (past : List (State × SignalAct)) : Prop :=
  ∃ msg, accepted past <+: (reportedSent past ++ [msg]).flatMap (frame env) ∧
    (reportedSent past ++ [msg]).Sublist (offered past)

theorem broken_cons {m : State × SignalAct} :
    Broken (m :: past) ↔ (∃ call ∈ m.2.log, AcceptsPart call) ∨ Broken past := by
  simp only [Broken, List.mem_cons, exists_eq_or_imp]

theorem frame_pos (msg : Message) : 0 < (frame env msg).length := by
  simp only [frame, p2pMessageFrame, List.length_append, writeScalar32_length]
  omega

theorem framed_quiet {m : State × SignalAct} (quiet : m.2.log = [])
    (reported : reportedSent (m :: past) = reportedSent past)
    (more : (offered past).Sublist (offered (m :: past)))
    (before : (¬ Broken past ∧ EndsWhole env past) ∨ (Broken past ∧ EndsCut env past)) :
    (¬ Broken (m :: past) ∧ EndsWhole env (m :: past)) ∨
      (Broken (m :: past) ∧ EndsCut env (m :: past)) := by
  have same : accepted (m :: past) = accepted past := by
    simp only [accepted, SignalAct.accepted, quiet, List.flatMap_nil, List.append_nil]
  have broken : Broken (m :: past) ↔ Broken past := by
    rw [broken_cons, quiet]
    simp only [List.not_mem_nil, false_and, exists_false, false_or]
  rw [broken, EndsWhole, EndsCut, same, reported]
  rcases before with ⟨whole, eq, sub⟩ | ⟨cut, msg, le, sub⟩
  · exact Or.inl ⟨whole, eq, sub.trans more⟩
  · exact Or.inr ⟨cut, msg, le, sub.trans more⟩

theorem framed_write {msg : Message} {w : Wsi} {retval : Int}
    (accepts : 0 ≤ retval ∧ retval ≤ (frame env msg).length)
    (whole : Broken past → (frame env msg).take retval.toNat = [])
    (before : (¬ Broken past ∧ EndsWhole env past) ∨ (Broken past ∧ EndsCut env past)) :
    let log : ClientLog := [⟨.libwebsocketWrite w (frame env msg), retval⟩]
    let now := (s, SignalAct.send msg log (decide (retval = (frame env msg).length))) :: past
    (¬ Broken now ∧ EndsWhole env now) ∨ (Broken now ∧ EndsCut env now) := by
  intro log now
  have pos : 0 < (frame env msg).length := frame_pos msg
  have broken : Broken now ↔ (0 < retval ∧ retval < (frame env msg).length) ∨ Broken past := by
    rw [broken_cons]
    simp only [log, SignalAct.log, List.mem_singleton, exists_eq_left, AcceptsPart]
  have stream : accepted now = accepted past ++ (frame env msg).take retval.toNat := by
    simp only [now, log, accepted, SignalAct.accepted, SignalAct.log, List.flatMap_cons,
      List.flatMap_nil, acceptedOf, List.append_nil]
  have asked : offered now = offered past ++ [msg] := rfl
  have reported : reportedSent now = reportedSent past ++
      if retval = (frame env msg).length then [msg] else [] := by
    simp only [now, reportedSent, decide_eq_true_eq]
  have more : (offered past).Sublist (offered past ++ [msg]) := List.sublist_append_left _ _
  rw [broken, EndsWhole, EndsCut, stream, asked, reported]
  rcases before with ⟨unbroken, eq, sub⟩ | ⟨cut, other, le, sub⟩
  · by_cases all : retval = (frame env msg).length
    · left
      have taken : (frame env msg).take retval.toNat = frame env msg := by
        rw [all, Int.toNat_natCast, List.take_length]
      refine ⟨?_, ?_, ?_⟩
      · rintro (part | before)
        · omega
        · exact unbroken before
      · rw [if_pos all, taken, eq, List.flatMap_append, List.flatMap_singleton]
      · rw [if_pos all]
        exact sub.append (List.Sublist.refl [msg])
    · rw [if_neg all, List.append_nil]
      by_cases none : retval = 0
      · left
        refine ⟨?_, ?_, sub.trans more⟩
        · rintro (part | before)
          · omega
          · exact unbroken before
        · rw [none, Int.toNat_zero, List.take_zero, List.append_nil, eq]
      · right
        refine ⟨Or.inl (by omega), msg, ?_, sub.append (List.Sublist.refl [msg])⟩
        rw [eq, List.flatMap_append, List.flatMap_singleton]
        exact List.prefix_append_right_inj _ |>.mpr (List.take_prefix _ _)
  · right
    -- after a frame that was cut off the write accepts nothing
    have nothing := whole cut
    have none : retval.toNat = 0 := by
      rcases List.take_eq_nil_iff.mp nothing with zero | empty
      · exact zero
      · rw [empty] at pos
        exact absurd pos (Nat.lt_irrefl 0)
    have part : ¬ retval = (frame env msg).length := by omega
    rw [if_neg part, List.append_nil, nothing, List.append_nil]
    exact ⟨Or.inr cut, other, le, sub.trans more⟩

theorem run_ends (run : SignalRun env wsi past s) (unbroken : Unbroken past) :
    (¬ Broken past ∧ EndsWhole env past) ∨ (Broken past ∧ EndsCut env past) := by
  induction run with
  | start here =>
    left
    exact ⟨fun ⟨_, mem, _⟩ => absurd mem List.not_mem_nil, rfl, List.Sublist.refl []⟩
  | @next past s t act before step ih =>
    obtain ⟨earlier, whole⟩ := unbroken
    have sofar := ih earlier
    cases step with
    | send ends accepts =>
      rcases (sendP2PMessage_ends ends).2 with ⟨rfl, rfl⟩ | ⟨w, retval, rfl, rfl⟩
      · exact framed_quiet rfl (List.append_nil _) (List.sublist_append_left _ _) sofar
      · refine framed_write (accepts _ List.mem_cons_self) (fun cut => ?_) sofar
        have nothing := whole cut
        simpa only [SignalAct.accepted, SignalAct.log, List.flatMap_cons, List.flatMap_nil,
          acceptedOf, List.append_nil] using nothing
    | writable ends accepts =>
      obtain ⟨rfl, _⟩ := signalOnWritable_ends (run_unbuffered before) ends
      exact framed_quiet rfl rfl (List.Sublist.refl _) sofar
    | other same => exact framed_quiet rfl rfl (List.Sublist.refl _) sofar

/-- As long as a frame that was accepted in part is the last, the stream is framed. -/
theorem signaling_stream_framed (run : SignalRun env wsi past s) (unbroken : Unbroken past) :
    Framed env past := by
  rcases run_ends run unbroken with ⟨_, eq, sub⟩ | ⟨_, msg, le, sub⟩
  · exact ⟨reportedSent past, List.prefix_refl _, sub, eq ▸ List.prefix_refl _⟩
  · exact ⟨reportedSent past ++ [msg], List.prefix_append _ _, sub, le⟩

end

/-! ### A frame that is cut off -/

def terse : Externals where
  sizeBits := 64
  verifyMessageBuffer _ := true
  getMessage _ := .none
  finish _ := ⟨[1], by decide⟩
  sha1 _ := Digest.zero

def signalOpened : State := { State.initial with p2pConn := some ⟨0, some 1, [], []⟩ }

def whoIs : Message := .aliasLookup (some ⟨[0x61]⟩)

def looksUp (retval : Int) : SignalAct :=
  .send whoIs [⟨.libwebsocketWrite 1 (frame terse whoIs), retval⟩] (decide (retval = 9))

theorem signalOpened_run (retvals : List Int) (within : ∀ r ∈ retvals, 0 ≤ r ∧ r ≤ 9) :
    SignalRun terse 1 (retvals.map fun r => (signalOpened, looksUp r)) signalOpened := by
  induction retvals with
  | nil => exact .start ⟨0, [], rfl⟩
  | cons r rest ih =>
    refine .next (ih fun r' h => within r' (List.mem_cons_of_mem r h)) (.send ?_ ?_)
    · obtain ⟨nonneg, le⟩ := within r List.mem_cons_self
      exact .released ⟨Int.le_trans (by decide) nonneg, le⟩ (.done _ _)
    · intro call mem
      rw [List.mem_singleton.mp mem]
      exact within r List.mem_cons_self

/-- The second lookup is accepted in part, the first one whole. -/
theorem framed_after_partial_write :
    Framed terse [(signalOpened, looksUp 3), (signalOpened, looksUp 9)] := by
  have run := signalOpened_run [3, 9] (by decide)
  refine signaling_stream_framed run ⟨⟨trivial, fun broken => ?_⟩, fun broken => ?_⟩
  · obtain ⟨_, mem, _⟩ := broken
    cases mem
  · obtain ⟨m, mem, call, mem', part⟩ := broken
    rw [List.mem_singleton.mp mem] at mem'
    rw [List.mem_singleton.mp mem'] at part
    exact absurd part.2 (by decide)

/-- Three bytes of the first lookup are accepted, then the whole second one: the stream
is no prefix of complete frames. -/
theorem stream_unframed :
    SignalRun terse 1 [(signalOpened, looksUp 9), (signalOpened, looksUp 3)] signalOpened ∧
      ¬ Framed terse [(signalOpened, looksUp 9), (signalOpened, looksUp 3)] := by
  refine ⟨signalOpened_run [9, 3] (by decide), ?_⟩
  rintro ⟨kept, _, sub, le⟩
  have all : ∀ msg, frame terse msg = frame terse whoIs := fun _ => rfl
  have same : kept.flatMap (frame terse) =
      (List.replicate kept.length (frame terse whoIs)).flatten := by
    rw [List.flatMap_def, List.map_congr_left fun msg _ => all msg, List.map_const']
  have short : kept.length ≤ 2 := sub.length_le
  rw [same] at le
  generalize kept.length = n at le short
  revert le
  have checked : ∀ n ≤ 2, ¬ accepted [(signalOpened, looksUp 9), (signalOpened, looksUp 3)] <+:
      (List.replicate n (frame terse whoIs)).flatten := by decide +kernel
  exact checked n short

end HumbleNet.Client

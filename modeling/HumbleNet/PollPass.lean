import Mathlib.Data.List.Nodup
import Mathlib.Data.List.Perm.Subperm
import Mathlib.Data.Set.Basic
import HumbleNet.Lib.StdVector

/-! The module of the websockets in the poll loop: the vector of its descriptors, which callbacks
of libwebsockets change, and the pass over those that are ready. -/
namespace HumbleNet

abbrev Fd := Nat

structure PollFd where
  fd : Fd
  events : UInt16
  revents : UInt16
deriving DecidableEq

inductive PollCallback where
  | add (fd : Fd) (events : UInt16)
  | del (fd : Fd)
  | changeMode (fd : Fd) (events : UInt16)
deriving DecidableEq

structure FdSets where
  readset : Fd → Bool
  writeset : Fd → Bool
  errorset : Fd → Bool

def FdSets.isSet (sets : FdSets) (fd : Fd) : Bool :=
  sets.readset fd || sets.writeset fd || sets.errorset fd

/-- What a call of `libwebsocket_service_fd` does: its callbacks in order, and its result. -/
structure ServiceReply where
  callbacks : List PollCallback
  retval : Int

/-- What the platform leaves open: the bits of `revents`, and how vectors grow. -/
structure PollPlatform where
  pollIn : UInt16
  pollOut : UInt16
  pollHup : UInt16
  grow : Nat → Nat

section pass

variable (platform : PollPlatform) (sets : FdSets) (replies : Nat → ServiceReply)

def pollCallback (pollfds : StdVector PollFd) : PollCallback → StdVector PollFd
  | .add fd events => pollfds.pushBack platform.grow ⟨fd, events, 0⟩
  | .del fd =>
    match pollfds.elems.findIdx? (·.fd = fd) with
    | none => pollfds
    | some i => pollfds.moveLastOver i
  | .changeMode fd events =>
    match pollfds.elems.findIdx? (·.fd = fd) with
    | none => pollfds
    | some i => pollfds.update (List.modify · i fun p => { p with events })
        fun l => List.length_modify _ l i

def revents (fd : Fd) : UInt16 :=
  (if sets.readset fd then platform.pollIn else 0) |||
    (if sets.writeset fd then platform.pollOut else 0) |||
      (if sets.errorset fd then platform.pollHup else 0)

/-- The vector, the count of ready descriptors that is left, and the descriptors for which
`libwebsocket_service_fd` has been called. -/
structure PassState where
  pollfds : StdVector PollFd
  slct : Int
  serviced : List Fd

def service (i : Nat) (fd : Fd) (s : PassState) : PassState where
  pollfds := (replies s.serviced.length).callbacks.foldl (pollCallback platform)
    (s.pollfds.update (List.modify · i fun p => { p with revents := revents platform sets fd })
      fun l => List.length_modify _ l i)
  slct := s.slct - 1
  serviced := s.serviced ++ [fd]

/-- `for (auto &pollfd : self->pollfds)`: the iterators are into the allocation that the vector
had at the start, up to the end that it had. It is `none` where one is used that no longer points
to an element. -/
def postSelectLoop (block : Nat) : Nat → Nat → PassState → Option PassState
  | 0, _, s => some s
  | left + 1, i, s =>
    match s.pollfds.deref block i with
    | none => none
    | some pollfd =>
      if sets.isSet pollfd.fd then
        let retval := (replies s.serviced.length).retval
        let t := service platform sets replies i pollfd.fd s
        if 0 ≤ retval ∧ t.pollfds.deref block i = none then none
        else if t.slct ≤ 0 then some t
        else postSelectLoop block left (i + 1) t
      else postSelectLoop block left (i + 1) s

def onPostSelect (pollfds : StdVector PollFd) (slct : Int) : Option PassState :=
  if slct ≤ 0 then some ⟨pollfds, slct, []⟩
  else postSelectLoop platform sets replies pollfds.block pollfds.elems.length 0
    ⟨pollfds, slct, []⟩

end pass

/-! ### The registered descriptors -/

abbrev Watched := Fd → Option UInt16

def Watched.apply (watched : Watched) : PollCallback → Watched
  | .add fd events => Function.update watched fd (some events)
  | .del fd => Function.update watched fd none
  | .changeMode fd events => Function.update watched fd ((watched fd).map fun _ => events)

def Watched.applyAll (watched : Watched) (callbacks : List PollCallback) : Watched :=
  callbacks.foldl Watched.apply watched

def view (pollfds : List PollFd) : Watched :=
  fun fd => (pollfds.find? (·.fd = fd)).map PollFd.events

def Distinct (pollfds : List PollFd) : Prop := (pollfds.map PollFd.fd).Nodup
deriving Decidable

def readyCount (sets : FdSets) (pollfds : StdVector PollFd) : Nat :=
  (pollfds.elems.map PollFd.fd).countP sets.isSet

/-- A pass over `left`, in any order: while one of them is ready, one is serviced, and those that
its callbacks remove are no longer left, even when they are added again. -/
inductive Pass (ready : Fd → Bool) (replies : Nat → ServiceReply) :
    Nat → Set Fd → Watched → List Fd → Watched → Prop where
  | done {calls : Nat} {left : Set Fd} {watched : Watched}
    (none : ∀ fd ∈ left, ready fd = false) : Pass ready replies calls left watched [] watched
  | service {calls : Nat} {left : Set Fd} {watched final : Watched} {fd : Fd} {rest : List Fd}
    (listed : fd ∈ left) (is : ready fd = true)
    (after : Pass ready replies (calls + 1)
      {g | g ∈ left ∧ g ≠ fd ∧ .del g ∉ (replies calls).callbacks}
      (watched.applyAll (replies calls).callbacks) rest final) :
    Pass ready replies calls left watched (fd :: rest) final

/-- Only current elements are accessed, every registered descriptor that is ready is serviced
once, unless it is removed before, and the vector is what the callbacks make of it. -/
def ServicesOnce (platform : PollPlatform) (sets : FdSets) (replies : Nat → ServiceReply)
    (pollfds : StdVector PollFd) (slct : Int) : Prop :=
  ∃ t, onPostSelect platform sets replies pollfds slct = some t ∧ Distinct t.pollfds.elems ∧
    Pass sets.isSet replies 0 {fd | (view pollfds.elems fd).isSome = true} (view pollfds.elems)
      t.serviced (view t.pollfds.elems)

/-! ### What the callbacks do to the places -/

def Fresh (watched : Watched) : PollCallback → Prop
  | .add fd _ => watched fd = none
  | _ => True

def AllFresh : List PollCallback → Watched → Prop
  | [], _ => True
  | callback :: callbacks, watched =>
    Fresh watched callback ∧ AllFresh callbacks (watched.apply callback)

section places

variable (platform : PollPlatform) (sets : FdSets) (replies : Nat → ServiceReply)
  (pollfds : StdVector PollFd) (slct : Int)

/-- The vector as the callbacks of the first services leave it. -/
def vectorAfter : Nat → StdVector PollFd
  | 0 => pollfds
  | calls + 1 => (replies calls).callbacks.foldl (pollCallback platform) (vectorAfter calls)

def readyAt (i : Nat) (v : StdVector PollFd) : Bool := v.elems[i]?.any fun p => sets.isSet p.fd

/-- How many services come before place `i`, when every place is found as the callbacks before
leave it. -/
def turn : Nat → Nat
  | 0 => 0
  | i + 1 =>
    turn i + if readyAt sets i (vectorAfter platform replies pollfds (turn i)) then 1 else 0

/-- The vector when place `i` has its turn. -/
def onTurn (i : Nat) : StdVector PollFd :=
  vectorAfter platform replies pollfds (turn platform sets replies pollfds i)

def afterTurn (i : Nat) : StdVector PollFd :=
  vectorAfter platform replies pollfds (turn platform sets replies pollfds i + 1)

/-- The place has its turn before the ready descriptors have been counted off. -/
def Comes (i : Nat) : Prop :=
  i < pollfds.elems.length ∧ (turn platform sets replies pollfds i : Int) < slct
deriving Decidable

def services : Nat := min (turn platform sets replies pollfds pollfds.elems.length) slct.toNat

def ServedAt (i : Nat) (fd : Fd) : Prop :=
  ((onTurn platform sets replies pollfds i).elems.map PollFd.fd)[i]? = some fd ∧
    sets.isSet fd = true

/-- A descriptor is registered at the start, and the first services do not remove it. -/
def Kept (calls : Nat) (fd : Fd) : Prop :=
  fd ∈ pollfds.elems.map PollFd.fd ∧ ∀ k < calls, .del fd ∉ (replies k).callbacks

def Current (i : Nat) (v : StdVector PollFd) : Prop :=
  v.block = pollfds.block ∧ i < v.elems.length
deriving Decidable

def following (i : Nat) (v : StdVector PollFd) : List Fd := (v.elems.map PollFd.fd).drop (i + 1)

/-- A place is there when it has its turn, and still is if it is looked at after its service. -/
structure Stands (i : Nat) : Prop where
  current : Current pollfds i (onTurn platform sets replies pollfds i)
  looked : ∀ g, ServedAt platform sets replies pollfds i g →
    0 ≤ (replies (turn platform sets replies pollfds i)).retval →
      Current pollfds i (afterTurn platform sets replies pollfds i)

/-- A descriptor that is serviced at a place has been registered all along, and the callbacks of
its service move no descriptor that is ready and never removed from a place that follows to one
that does not. -/
structure Undisturbed (i : Nat) : Prop extends Stands platform sets replies pollfds i where
  old : ∀ g, ServedAt platform sets replies pollfds i g →
    Kept replies pollfds (turn platform sets replies pollfds i) g
  unmoved : ∀ g, ServedAt platform sets replies pollfds i g → ∀ fd, sets.isSet fd = true →
    Kept replies pollfds (services platform sets replies pollfds slct) fd →
      fd ∈ following i (onTurn platform sets replies pollfds i) →
        fd ∈ following i (afterTurn platform sets replies pollfds i)

/-- In the services of the pass, only descriptors that are not registered are added. -/
def AddsFresh : Prop :=
  ∀ calls < services platform sets replies pollfds slct,
    AllFresh (replies calls).callbacks
      (view (vectorAfter platform replies pollfds calls).elems)

end places

/-! ### What a callback does -/

section proofs

variable {platform : PollPlatform} {sets : FdSets} {replies : Nat → ServiceReply}

theorem findIdx?_cases {α : Type} (p : α → Bool) (l : List α) :
    (l.findIdx? p = none ∧ ∀ a ∈ l, p a = false) ∨
      ∃ front a back, l = front ++ a :: back ∧ p a = true ∧
        l.findIdx? p = some front.length := by
  induction l with
  | nil => exact .inl ⟨rfl, by simp⟩
  | cons b l ih =>
    by_cases here : p b = true
    · exact .inr ⟨[], b, l, rfl, here, by simp [List.findIdx?_cons, here]⟩
    · rcases ih with ⟨none, others⟩ | ⟨front, a, back, rfl, is, found⟩
      · exact .inl ⟨by simp [List.findIdx?_cons, here, none], by simpa [here] using others⟩
      · exact .inr ⟨b :: front, a, back, rfl, is, by simp [List.findIdx?_cons, here, found]⟩

theorem view_isSome {l : List PollFd} {fd : Fd} :
    (view l fd).isSome = true ↔ fd ∈ l.map PollFd.fd := by
  simp only [view, Option.isSome_map, List.find?_isSome, List.mem_map, decide_eq_true_eq]

theorem view_none {l : List PollFd} {fd : Fd} (absent : fd ∉ l.map PollFd.fd) :
    view l fd = none := by
  rw [← Option.not_isSome_iff_eq_none, view_isSome]
  exact absent

theorem view_cons (p : PollFd) (l : List PollFd) :
    view (p :: l) = Function.update (view l) p.fd (some p.events) := by
  funext fd
  by_cases here : fd = p.fd
  · subst here
    rw [view, List.find?_cons_of_pos (by simp), Function.update_self]
    rfl
  · rw [Function.update_of_ne here, view, List.find?_cons_of_neg (by simpa using Ne.symm here)]
    rfl

theorem view_middle {p : PollFd} {front : List PollFd} (back : List PollFd)
    (absent : p.fd ∉ front.map PollFd.fd) : view (front ++ p :: back) =
      Function.update (view (front ++ back)) p.fd (some p.events) := by
  induction front with
  | nil => exact view_cons p back
  | cons q front ih =>
    obtain ⟨other, absent⟩ : p.fd ≠ q.fd ∧ p.fd ∉ front.map PollFd.fd := by simpa using absent
    rw [List.cons_append, view_cons, ih absent, List.cons_append, view_cons,
      Function.update_comm other.symm]

theorem view_perm {l l' : List PollFd} (perm : l.Perm l') (distinct : Distinct l) :
    view l = view l' := by
  induction perm with
  | nil => rfl
  | cons p _ ih =>
    obtain ⟨-, distinct⟩ := List.nodup_cons.mp distinct
    rw [view_cons, view_cons, ih distinct]
  | swap p q l =>
    obtain ⟨other, -⟩ := List.nodup_cons.mp distinct
    have differ : q.fd ≠ p.fd := fun same => other (same ▸ List.mem_cons_self)
    rw [view_cons, view_cons, view_cons, view_cons, Function.update_comm differ]
  | trans first _ ih ih' =>
    exact (ih distinct).trans (ih' ((first.map PollFd.fd).nodup_iff.mp distinct))

theorem Distinct.of_perm {l l' : List PollFd} (distinct : Distinct l) (perm : l.Perm l') :
    Distinct l' :=
  (perm.map PollFd.fd).nodup_iff.mp distinct

theorem distinct_middle {p : PollFd} {front back : List PollFd} :
    Distinct (front ++ p :: back) ↔
      p.fd ∉ (front ++ back).map PollFd.fd ∧ Distinct (front ++ back) := by
  unfold Distinct
  rw [List.map_append, List.map_cons, List.perm_middle.nodup_iff, List.nodup_cons,
    ← List.map_append]

theorem modify_middle {α : Type} (f : α → α) (front : List α) (a : α) (back : List α) :
    (front ++ a :: back).modify front.length f = front ++ f a :: back := by
  induction front with
  | nil => rfl
  | cons b front ih => exact congrArg (b :: ·) ih

theorem findIdx?_fd {l : List PollFd} (distinct : Distinct l) (fd : Fd) :
    (l.findIdx? (fun p => decide (p.fd = fd)) = none ∧ view l fd = none) ∨
      ∃ front p back, l = front ++ p :: back ∧ p.fd = fd ∧
        l.findIdx? (fun p => decide (p.fd = fd)) = some front.length ∧
        Distinct (front ++ back) ∧ p.fd ∉ front.map PollFd.fd ∧
        view (front ++ back) p.fd = none := by
  rcases findIdx?_cases (fun p : PollFd => decide (p.fd = fd)) l with
    ⟨none, others⟩ | ⟨front, p, back, rfl, is, found⟩
  · refine .inl ⟨none, view_none fun listed => ?_⟩
    obtain ⟨p, there, rfl⟩ := List.mem_map.mp listed
    simpa using others p there
  · obtain ⟨absent, distinct⟩ := distinct_middle.mp distinct
    refine .inr ⟨front, p, back, rfl, of_decide_eq_true is, found, distinct, fun listed => ?_,
      view_none absent⟩
    exact absent (by simp [List.mem_map.mp listed])

theorem pollCallback_view {v : StdVector PollFd} (distinct : Distinct v.elems)
    (callback : PollCallback) (fresh : Fresh (view v.elems) callback) :
    Distinct (pollCallback platform v callback).elems ∧
      view (pollCallback platform v callback).elems = (view v.elems).apply callback := by
  cases callback with
  | add fd events =>
    have absent : fd ∉ v.elems.map PollFd.fd := by
      rw [← view_isSome, fresh]
      exact Bool.false_ne_true
    rw [pollCallback, StdVector.pushBack_elems]
    constructor
    · rw [distinct_middle, List.append_nil]
      exact ⟨absent, distinct⟩
    · rw [view_middle [] absent, List.append_nil]
      rfl
  | del fd =>
    rw [pollCallback, Watched.apply]
    rcases findIdx?_fd distinct fd with
      ⟨none, absent⟩ | ⟨front, p, back, list, rfl, found, distinct', before, absent⟩
    · rw [none]
      refine ⟨distinct, ?_⟩
      rw [← absent, Function.update_eq_self]
    · have inside : front.length < v.elems.length := by simp [list]
      have perm := v.moveLastOver_perm inside
      rw [list, List.eraseIdx_append_of_length_le (Nat.le_refl _), Nat.sub_self,
        List.eraseIdx_cons_zero] at perm
      rw [found]
      refine ⟨distinct'.of_perm perm.symm, ?_⟩
      rw [← view_perm perm.symm distinct', list, view_middle back before, Function.update_idem,
        ← absent, Function.update_eq_self]
  | changeMode fd events =>
    rw [pollCallback, Watched.apply]
    rcases findIdx?_fd distinct fd with
      ⟨none, absent⟩ | ⟨front, p, back, list, rfl, found, -, before, -⟩
    · rw [none]
      refine ⟨distinct, ?_⟩
      rw [absent, Option.map_none, ← absent, Function.update_eq_self]
    · have changed : (v.update (List.modify · front.length fun p => { p with events })
          fun l => List.length_modify _ l front.length).elems =
            front ++ { p with events } :: back := by
        rw [StdVector.update_elems, list, modify_middle]
      rw [found]
      dsimp only
      rw [changed, list, view_middle back before, Function.update_self, Function.update_idem]
      rw [list] at distinct
      have apart := distinct_middle.mp distinct
      exact ⟨distinct_middle.mpr apart, view_middle back before⟩

theorem callbacks_view {callbacks : List PollCallback} {v : StdVector PollFd}
    (distinct : Distinct v.elems) (fresh : AllFresh callbacks (view v.elems)) :
    Distinct (callbacks.foldl (pollCallback platform) v).elems ∧
      view (callbacks.foldl (pollCallback platform) v).elems =
        (view v.elems).applyAll callbacks := by
  induction callbacks generalizing v with
  | nil => exact ⟨distinct, rfl⟩
  | cons callback callbacks ih =>
    obtain ⟨distinct', after⟩ := @pollCallback_view platform _ distinct callback fresh.1
    have rest := ih distinct' (after ▸ fresh.2)
    rw [List.foldl_cons]
    exact ⟨rest.1, rest.2.trans (by rw [after]; rfl)⟩

def PollFd.bare (p : PollFd) : PollFd := { p with revents := 0 }

def AlikeVectors (v w : StdVector PollFd) : Prop := v.map PollFd.bare = w.map PollFd.bare

theorem map_modify {α β : Type} {f : α → β} {g : α → α} {g' : β → β}
    (same : ∀ a, f (g a) = g' (f a)) (l : List α) (i : Nat) :
    (l.modify i g).map f = (l.map f).modify i g' := by
  induction l generalizing i with
  | nil => cases i <;> rfl
  | cons a l ih =>
    cases i with
    | zero => simp [same]
    | succ i => simp [ih]

theorem bare_callback (v : StdVector PollFd) (callback : PollCallback) :
    (pollCallback platform v callback).map PollFd.bare =
      pollCallback platform (v.map PollFd.bare) callback := by
  have found : ∀ fd, (v.map PollFd.bare).elems.findIdx? (fun p => decide (p.fd = fd)) =
      v.elems.findIdx? fun p => decide (p.fd = fd) := fun fd => List.findIdx?_map
  cases callback with
  | add fd events => exact v.map_pushBack PollFd.bare platform.grow ⟨fd, events, 0⟩
  | del fd =>
    simp only [pollCallback, found]
    cases v.elems.findIdx? fun p => decide (p.fd = fd) with
    | none => rfl
    | some i => exact v.map_moveLastOver PollFd.bare i
  | changeMode fd events =>
    simp only [pollCallback, found]
    cases v.elems.findIdx? fun p => decide (p.fd = fd) with
    | none => rfl
    | some i =>
      ext1
      · exact @map_modify _ _ PollFd.bare (fun p => { p with events })
          (fun p => { p with events }) (fun _ => rfl) v.elems i
      · rfl
      · rfl

theorem AlikeVectors.callbacks {v w : StdVector PollFd} (alike : AlikeVectors v w)
    (callbacks : List PollCallback) : AlikeVectors (callbacks.foldl (pollCallback platform) v)
      (callbacks.foldl (pollCallback platform) w) := by
  induction callbacks generalizing v w with
  | nil => exact alike
  | cons callback callbacks ih =>
    apply ih
    unfold AlikeVectors
    rw [bare_callback, bare_callback, alike]

theorem AlikeVectors.fds {v w : StdVector PollFd} (alike : AlikeVectors v w) :
    v.elems.map PollFd.fd = w.elems.map PollFd.fd := by
  have same := congrArg (List.map PollFd.fd) (congrArg StdVector.elems alike)
  simp only [StdVector.map, List.map_map] at same
  exact same

theorem AlikeVectors.view {v w : StdVector PollFd} (alike : AlikeVectors v w) :
    view v.elems = view w.elems := by
  have bare : ∀ l : List PollFd, HumbleNet.view (l.map PollFd.bare) = HumbleNet.view l := by
    intro l
    induction l with
    | nil => rfl
    | cons p l ih =>
      rw [List.map_cons, view_cons, view_cons, ih]
      rfl
  rw [← bare v.elems, ← bare w.elems]
  exact congrArg (fun u => HumbleNet.view (StdVector.elems u)) alike

theorem AlikeVectors.deref {v w : StdVector PollFd} (alike : AlikeVectors v w) (block i : Nat) :
    (v.deref block i).map PollFd.fd = (w.deref block i).map PollFd.fd := by
  have same := congrArg (fun u => (StdVector.deref block i u).map PollFd.fd) alike
  simp only [StdVector.map_deref, Option.map_map] at same
  exact same

theorem alike_revents (v : StdVector PollFd) (i : Nat) (bits : UInt16) :
    AlikeVectors (v.update (List.modify · i fun p => { p with revents := bits })
      fun l => List.length_modify _ l i) v := by
  unfold AlikeVectors
  ext1
  · have same := @map_modify _ _ PollFd.bare (fun p => { p with revents := bits }) id (fun _ => rfl)
      v.elems i
    rw [List.modify_id] at same
    exact same
  · rfl
  · rfl

theorem mem_take_callback {v : StdVector PollFd} {callback : PollCallback} {fd : Fd} {n : Nat}
    (other : callback ≠ .del fd) (mem : fd ∈ (v.elems.map PollFd.fd).take n) :
    fd ∈ ((pollCallback platform v callback).elems.map PollFd.fd).take n := by
  cases callback with
  | add g events =>
    rw [pollCallback, StdVector.pushBack_elems, List.map_append]
    obtain ⟨k, inside, eq⟩ := List.mem_take_iff_getElem.mp mem
    refine List.mem_take_iff_getElem.mpr ⟨k, ?_, ?_⟩
    · rw [List.length_append]
      omega
    · rw [List.getElem_append_left]
      exact eq
  | del g =>
    rw [pollCallback]
    rcases findIdx?_cases (fun p : PollFd => decide (p.fd = g)) v.elems with
      ⟨none, -⟩ | ⟨front, q, back, list, is, found⟩
    · rw [none]
      exact mem
    · rw [found]
      rw [← List.map_take] at mem ⊢
      obtain ⟨p, there, rfl⟩ := List.mem_map.mp mem
      have here : v.elems[front.length]? = some q := by
        rw [list, List.getElem?_append_right (Nat.le_refl _), Nat.sub_self]
        rfl
      have apart : q ≠ p := by
        rintro rfl
        exact other (by rw [of_decide_eq_true is])
      exact List.mem_map_of_mem (StdVector.mem_take_moveLastOver here apart there)
  | changeMode g events =>
    rw [pollCallback]
    cases v.elems.findIdx? fun p => decide (p.fd = g) with
    | none => exact mem
    | some i =>
      have same := @map_modify _ _ PollFd.fd (fun p => { p with events := events }) id
        (fun _ => rfl)
        v.elems i
      rw [List.modify_id] at same
      dsimp only
      rw [StdVector.update_elems, same]
      exact mem

theorem mem_take_callbacks {callbacks : List PollCallback} {v : StdVector PollFd} {fd : Fd}
    {n : Nat} (kept : .del fd ∉ callbacks) (mem : fd ∈ (v.elems.map PollFd.fd).take n) :
    fd ∈ ((callbacks.foldl (pollCallback platform) v).elems.map PollFd.fd).take n := by
  induction callbacks generalizing v with
  | nil => exact mem
  | cons callback callbacks ih =>
    obtain ⟨other, kept⟩ := not_or.mp (mt List.mem_cons.mpr kept)
    exact ih kept (mem_take_callback (Ne.symm other) mem)

theorem pass_iff {ready : Fd → Bool} {calls : Nat} {left : Set Fd} {watched final : Watched}
    {order : List Fd} : Pass ready replies calls left watched order final ↔
      order.Nodup ∧
      (∀ k fd, order[k]? = some fd →
        fd ∈ left ∧ ready fd = true ∧ ∀ m < k, .del fd ∉ (replies (calls + m)).callbacks) ∧
      (∀ fd ∈ left, ready fd = true →
        (∀ m < order.length, .del fd ∉ (replies (calls + m)).callbacks) → fd ∈ order) ∧
      (List.range' calls order.length).foldl (fun w k => w.applyAll (replies k).callbacks) watched =
        final := by
  induction order generalizing calls left watched with
  | nil =>
    constructor
    · rintro ⟨none⟩
      refine ⟨List.nodup_nil, by simp, fun fd listed is => ?_, rfl⟩
      exact absurd ((none fd listed).symm.trans is) Bool.false_ne_true
    · rintro ⟨-, -, all, rfl⟩
      refine .done fun fd listed => ?_
      by_contra is
      exact List.not_mem_nil (all fd listed (by simpa using is) (by simp))
  | cons fd rest ih =>
    have shift : ∀ m, calls + 1 + m = calls + (m + 1) := fun m => by omega
    constructor
    · rintro (_ | ⟨listed, is, after⟩)
      obtain ⟨nodup, each, all, run⟩ := ih.mp after
      refine ⟨List.nodup_cons.mpr ⟨fun again => ?_, nodup⟩, ?_, ?_, run⟩
      · obtain ⟨k, eq⟩ := List.mem_iff_getElem?.mp again
        exact (each k fd eq).1.2.1 rfl
      · rintro (_ | k) g eq
        · obtain rfl := Option.some.inj eq
          exact ⟨listed, is, by simp⟩
        · obtain ⟨⟨listed', -, first⟩, is', later⟩ := each k g eq
          refine ⟨listed', is', ?_⟩
          rintro (_ | m) before
          · exact first
          · rw [← shift]
            exact later m (by omega)
      · intro g listed' is' kept
        by_cases here : g = fd
        · exact here ▸ List.mem_cons_self
        · refine List.mem_cons_of_mem _ (all g ⟨listed', here, kept 0 (by simp)⟩ is' ?_)
          intro m before
          rw [shift]
          exact kept (m + 1) (by simpa using before)
    · rintro ⟨nodup, each, all, run⟩
      obtain ⟨unseen, nodup⟩ := List.nodup_cons.mp nodup
      obtain ⟨listed, is, -⟩ := each 0 fd rfl
      refine .service listed is (ih.mpr ⟨nodup, ?_, ?_, run⟩)
      · intro k g eq
        obtain ⟨listed', is', later⟩ := each (k + 1) g eq
        refine ⟨⟨listed', ?_, later 0 (Nat.succ_pos k)⟩, is', fun m before => ?_⟩
        · rintro rfl
          exact unseen (List.mem_of_getElem? eq)
        · rw [shift]
          exact later (m + 1) (by omega)
      · rintro g ⟨listed', other, first⟩ is' kept
        refine List.mem_of_ne_of_mem other (all g listed' is' ?_)
        rintro (_ | m) before
        · exact first
        · rw [← shift]
          exact kept m (by simpa using before)

/-! ### The turns -/

section turns

variable {pollfds : StdVector PollFd} {slct : Int} {i j k m n : Nat} {fd : Fd}

theorem readyAt_iff : readyAt sets i (onTurn platform sets replies pollfds i) = true ↔
    ∃ fd, ServedAt platform sets replies pollfds i fd := by
  unfold readyAt ServedAt
  cases here : (onTurn platform sets replies pollfds i).elems[i]? <;> simp [here]

theorem turn_served (served : ServedAt platform sets replies pollfds i fd) :
    turn platform sets replies pollfds (i + 1) = turn platform sets replies pollfds i + 1 := by
  rw [turn, ← onTurn, if_pos (readyAt_iff.mpr ⟨fd, served⟩)]

theorem turn_idle (idle : ∀ fd, ¬ ServedAt platform sets replies pollfds i fd) :
    turn platform sets replies pollfds (i + 1) = turn platform sets replies pollfds i := by
  rw [turn, ← onTurn, if_neg (mt readyAt_iff.mp (not_exists.mpr idle)), Nat.add_zero]

theorem turn_mono (le : i ≤ j) :
    turn platform sets replies pollfds i ≤ turn platform sets replies pollfds j := by
  induction le with
  | refl => exact Nat.le_refl _
  | step _ ih => exact Nat.le_trans ih (Nat.le_add_right _ _)

theorem turn_lt (served : ServedAt platform sets replies pollfds i fd) (lt : i < j) :
    turn platform sets replies pollfds i < turn platform sets replies pollfds j := by
  have next := @turn_mono platform sets replies pollfds _ _ lt
  rw [turn_served served] at next
  omega

theorem Comes.le_services (comes : Comes platform sets replies pollfds slct i) :
    turn platform sets replies pollfds i ≤ services platform sets replies pollfds slct := by
  have next := @turn_mono platform sets replies pollfds _ _ (Nat.le_of_lt comes.1)
  have before := comes.2
  unfold services
  omega

theorem Comes.lt_services (comes : Comes platform sets replies pollfds slct i)
    (served : ServedAt platform sets replies pollfds i fd) :
    turn platform sets replies pollfds i < services platform sets replies pollfds slct := by
  have next := turn_lt served comes.1
  have before := comes.2
  unfold services
  omega

theorem afterTurn_eq (served : ServedAt platform sets replies pollfds i fd) :
    afterTurn platform sets replies pollfds i = onTurn platform sets replies pollfds (i + 1) := by
  rw [afterTurn, onTurn, turn_served served]

theorem Kept.mono (kept : Kept replies pollfds m fd) (le : k ≤ m) : Kept replies pollfds k fd :=
  ⟨kept.1, fun n before => kept.2 n (by omega)⟩

theorem Kept.mem_take (kept : Kept replies pollfds m fd) (le : k ≤ m)
    (mem : fd ∈ ((vectorAfter platform replies pollfds k).elems.map PollFd.fd).take n) :
    fd ∈ ((vectorAfter platform replies pollfds m).elems.map PollFd.fd).take n := by
  induction le with
  | refl => exact mem
  | @step m _ ih =>
    exact mem_take_callbacks (kept.2 m (Nat.lt_succ_self m)) (ih (kept.mono (Nat.le_succ m)))

theorem Kept.listed (kept : Kept replies pollfds k fd) :
    fd ∈ ((vectorAfter platform replies pollfds k).elems.map PollFd.fd).take
      pollfds.elems.length := by
  apply kept.mem_take (Nat.zero_le k)
  rw [vectorAfter, List.take_of_length_le (Nat.le_of_eq (List.length_map _))]
  exact kept.1

theorem Kept.behind (kept : Kept replies pollfds (turn platform sets replies pollfds j) fd)
    (served : ServedAt platform sets replies pollfds i fd) (le : i ≤ j) :
    fd ∈ ((onTurn platform sets replies pollfds j).elems.map PollFd.fd).take (i + 1) := by
  apply kept.mem_take (turn_mono le)
  rw [List.take_add_one]
  exact List.mem_append_right _ (by rw [← onTurn, served.1]; exact List.mem_singleton_self fd)

theorem vectorAfter_view (distinct : Distinct pollfds.elems)
    (fresh : AddsFresh platform sets replies pollfds slct)
    (le : k ≤ services platform sets replies pollfds slct) :
    Distinct (vectorAfter platform replies pollfds k).elems ∧
      view (vectorAfter platform replies pollfds k).elems =
        (List.range' 0 k).foldl (fun w k => w.applyAll (replies k).callbacks)
          (view pollfds.elems) := by
  induction k with
  | zero => exact ⟨distinct, rfl⟩
  | succ k ih =>
    obtain ⟨distinct', same⟩ := ih (by omega)
    obtain ⟨distinct'', next⟩ := @callbacks_view platform _ _ distinct' (fresh k (by omega))
    refine ⟨distinct'', next.trans ?_⟩
    rw [List.range'_1_concat, List.foldl_append, ← same, Nat.zero_add]
    rfl

end turns

theorem distinct_apart {l : List PollFd} (distinct : Distinct l) {n : Nat} {fd : Fd}
    (before : fd ∈ (l.map PollFd.fd).take n) : fd ∉ (l.map PollFd.fd).drop n := by
  have parts : ((l.map PollFd.fd).take n ++ (l.map PollFd.fd).drop n).Nodup := by
    rw [List.take_append_drop]
    exact distinct
  exact fun behind => (List.nodup_append.mp parts).2.2 fd before fd behind rfl

/-! ### The pass -/

structure Through (platform : PollPlatform) (sets : FdSets) (replies : Nat → ServiceReply)
    (pollfds : StdVector PollFd) (slct : Int) (i : Nat) (s : PassState) : Prop where
  count : s.serviced.length = turn platform sets replies pollfds i
  budget : s.slct = slct - turn platform sets replies pollfds i
  alike : AlikeVectors s.pollfds (onTurn platform sets replies pollfds i)
  stood : ∀ j < i, Stands platform sets replies pollfds j
  served : ∀ k fd, s.serviced[k]? = some fd ↔
    ∃ j < i, ServedAt platform sets replies pollfds j fd ∧
      turn platform sets replies pollfds j = k

section walk

variable {pollfds : StdVector PollFd} {slct : Int} {i left : Nat} {s : PassState}

theorem Through.start : Through platform sets replies pollfds slct 0 ⟨pollfds, slct, []⟩ :=
  ⟨rfl, (Int.sub_zero slct).symm, rfl, by simp, by simp⟩

theorem deref_current {v : StdVector PollFd} : (v.deref pollfds.block i).isSome = true ↔
    Current pollfds i v := by
  unfold StdVector.deref Current
  split
  · rename_i same
    simp [same]
  · rename_i moved
    simp [moved]

theorem AlikeVectors.current {v w : StdVector PollFd} (alike : AlikeVectors v w) :
    (v.deref pollfds.block i).isSome = true ↔ Current pollfds i w := by
  rw [← deref_current, ← Option.isSome_map (f := PollFd.fd), alike.deref, Option.isSome_map]

theorem Through.skip (through : Through platform sets replies pollfds slct i s)
    (stands : Stands platform sets replies pollfds i)
    (idle : ∀ fd, ¬ ServedAt platform sets replies pollfds i fd) :
    Through platform sets replies pollfds slct (i + 1) s := by
  have same := turn_idle idle
  refine ⟨same ▸ through.count, same ▸ through.budget, ?_, ?_, ?_⟩
  · rw [onTurn, same]
    exact through.alike
  · intro j before
    rcases Nat.lt_succ_iff_lt_or_eq.mp before with earlier | rfl
    · exact through.stood j earlier
    · exact stands
  · intro k fd
    rw [through.served]
    constructor
    · rintro ⟨j, before, its⟩
      exact ⟨j, by omega, its⟩
    · rintro ⟨j, before, its⟩
      rcases Nat.lt_succ_iff_lt_or_eq.mp before with earlier | rfl
      · exact ⟨j, earlier, its⟩
      · exact absurd its.1 (idle fd)

theorem service_alike {fd : Fd} (through : Through platform sets replies pollfds slct i s) :
    AlikeVectors (service platform sets replies i fd s).pollfds
      (afterTurn platform sets replies pollfds i) := by
  have written : AlikeVectors _ (onTurn platform sets replies pollfds i) :=
    (alike_revents s.pollfds i (revents platform sets fd)).trans through.alike
  rw [service, through.count]
  exact written.callbacks (replies (turn platform sets replies pollfds i)).callbacks

theorem Through.serve {fd : Fd} (through : Through platform sets replies pollfds slct i s)
    (stands : Stands platform sets replies pollfds i)
    (served : ServedAt platform sets replies pollfds i fd) :
    Through platform sets replies pollfds slct (i + 1)
      (service platform sets replies i fd s) := by
  have next := turn_served served
  refine ⟨?_, ?_, afterTurn_eq served ▸ service_alike through, ?_, ?_⟩
  · change (s.serviced ++ [fd]).length = _
    rw [List.length_append, List.length_singleton, through.count, next]
  · change s.slct - 1 = _
    have budget := through.budget
    omega
  · intro j before
    rcases Nat.lt_succ_iff_lt_or_eq.mp before with earlier | rfl
    · exact through.stood j earlier
    · exact stands
  · intro k g
    change (s.serviced ++ [fd])[k]? = some g ↔ _
    have count := through.count
    constructor
    · intro there
      rcases Nat.lt_or_ge k s.serviced.length with earlier | late
      · rw [List.getElem?_append_left earlier] at there
        obtain ⟨j, before, its⟩ := (through.served k g).mp there
        exact ⟨j, by omega, its⟩
      · rw [List.getElem?_append_right late] at there
        obtain ⟨zero, rfl⟩ : k - s.serviced.length = 0 ∧ fd = g := by
          simpa [List.getElem?_singleton] using there
        exact ⟨i, by omega, served, by omega⟩
    · rintro ⟨j, before, its, rfl⟩
      rcases Nat.lt_succ_iff_lt_or_eq.mp before with earlier | rfl
      · have there := (through.served _ g).mpr ⟨j, earlier, its, rfl⟩
        rw [List.getElem?_append_left (List.getElem?_eq_some_iff.mp there).1]
        exact there
      · obtain rfl := Option.some.inj (served.1.symm.trans its.1)
        rw [← count, List.getElem?_concat_length]

theorem Through.iterate (left : Nat) (through : Through platform sets replies pollfds slct i s)
    (goes : (turn platform sets replies pollfds i : Int) < slct) :
    (¬ Stands platform sets replies pollfds i ∧
      postSelectLoop platform sets replies pollfds.block (left + 1) i s = none) ∨
    ∃ t, Through platform sets replies pollfds slct (i + 1) t ∧
      postSelectLoop platform sets replies pollfds.block (left + 1) i s =
        if slct ≤ turn platform sets replies pollfds (i + 1) then some t
        else postSelectLoop platform sets replies pollfds.block left (i + 1) t := by
  have same := through.alike.deref pollfds.block i
  rw [postSelectLoop]
  cases found : s.pollfds.deref pollfds.block i with
  | none =>
    refine .inl ⟨fun stands => ?_, rfl⟩
    have some := through.alike.current.mpr stands.current
    rw [found] at some
    cases some
  | some q =>
    have current : Current pollfds i (onTurn platform sets replies pollfds i) :=
      through.alike.current.mp (by rw [found]; rfl)
    have there : (onTurn platform sets replies pollfds i).deref pollfds.block i =
        (onTurn platform sets replies pollfds i).elems[i]? := if_pos current.1
    rw [found, there, ← List.getElem?_map] at same
    have here := same.symm
    dsimp only
    by_cases is : sets.isSet q.fd = true
    · have served : ServedAt platform sets replies pollfds i q.fd := ⟨here, is⟩
      have looks : ((service platform sets replies i q.fd s).pollfds.deref pollfds.block i).isSome =
          true ↔ Current pollfds i (afterTurn platform sets replies pollfds i) :=
        (service_alike through).current
      have counted : (service platform sets replies i q.fd s).slct = s.slct - 1 := rfl
      have budget := through.budget
      have next := turn_served served
      rw [if_pos is, through.count]
      by_cases outside : 0 ≤ (replies (turn platform sets replies pollfds i)).retval ∧
          (service platform sets replies i q.fd s).pollfds.deref pollfds.block i = none
      · refine .inl ⟨fun stands => ?_, if_pos outside⟩
        have some := looks.mpr (stands.looked _ served outside.1)
        rw [outside.2] at some
        cases some
      · have stands : Stands platform sets replies pollfds i := by
          refine ⟨current, fun _ _ fine => looks.mp ?_⟩
          exact Option.isSome_iff_ne_none.mpr fun none => outside ⟨fine, none⟩
        refine .inr ⟨_, through.serve stands served, ?_⟩
        rw [if_neg outside]
        exact if_congr (by omega) rfl rfl
    · have idle : ∀ fd, ¬ ServedAt platform sets replies pollfds i fd := by
        rintro fd ⟨there, ready⟩
        obtain rfl := Option.some.inj (here.symm.trans there)
        exact is ready
      have stands : Stands platform sets replies pollfds i :=
        ⟨current, fun fd served => absurd served (idle fd)⟩
      refine .inr ⟨s, through.skip stands idle, ?_⟩
      rw [if_neg is, if_neg]
      rw [turn_idle idle]
      omega

structure Walked (platform : PollPlatform) (sets : FdSets) (replies : Nat → ServiceReply)
    (pollfds : StdVector PollFd) (slct : Int) (t : PassState) : Prop where
  count : t.serviced.length = services platform sets replies pollfds slct
  alike : AlikeVectors t.pollfds
    (vectorAfter platform replies pollfds (services platform sets replies pollfds slct))
  stood : ∀ i, Comes platform sets replies pollfds slct i → Stands platform sets replies pollfds i
  served : ∀ k fd, t.serviced[k]? = some fd ↔
    ∃ i, Comes platform sets replies pollfds slct i ∧
      ServedAt platform sets replies pollfds i fd ∧ turn platform sets replies pollfds i = k

theorem Through.walked (through : Through platform sets replies pollfds slct i s)
    (all : turn platform sets replies pollfds i = services platform sets replies pollfds slct)
    (ends : ∀ j, Comes platform sets replies pollfds slct j ↔ j < i) :
    Walked platform sets replies pollfds slct s where
  count := all ▸ through.count
  alike := all ▸ through.alike
  stood i comes := through.stood i ((ends i).mp comes)
  served k fd := by
    simp only [ends]
    exact through.served k fd

theorem Through.walks (through : Through platform sets replies pollfds slct i s)
    (size : i + left = pollfds.elems.length)
    (goes : (turn platform sets replies pollfds i : Int) < slct) :
    ((∃ j, Comes platform sets replies pollfds slct j ∧
        ¬ Stands platform sets replies pollfds j) ∧
      postSelectLoop platform sets replies pollfds.block left i s = none) ∨
    ∃ t, postSelectLoop platform sets replies pollfds.block left i s = some t ∧
      Walked platform sets replies pollfds slct t := by
  induction left generalizing i s with
  | zero =>
    obtain rfl : i = pollfds.elems.length := size
    refine .inr ⟨s, rfl, through.walked (by unfold services; omega) fun j => ?_⟩
    refine ⟨fun comes => comes.1, fun before => ⟨before, ?_⟩⟩
    have le := @turn_mono platform sets replies pollfds _ _ (Nat.le_of_lt before)
    omega
  | succ left ih =>
    rcases through.iterate left goes with ⟨falls, outside⟩ | ⟨t, through', same⟩
    · exact .inl ⟨⟨i, ⟨by omega, goes⟩, falls⟩, outside⟩
    · rw [same]
      by_cases stop : slct ≤ turn platform sets replies pollfds (i + 1)
      · have most : turn platform sets replies pollfds (i + 1) ≤
            turn platform sets replies pollfds i + 1 := by
          rw [turn]
          split <;> omega
        have rest := @turn_mono platform sets replies pollfds (i + 1) pollfds.elems.length
          (by omega)
        rw [if_pos stop]
        refine .inr ⟨t, rfl, through'.walked (by unfold services; omega) fun j => ⟨?_, ?_⟩⟩
        · intro comes
          by_contra late
          have le := @turn_mono platform sets replies pollfds _ _ (Nat.le_of_not_lt late)
          have before := comes.2
          omega
        · intro before
          have le := @turn_mono platform sets replies pollfds _ _ (Nat.le_of_lt_succ before)
          exact ⟨by omega, by omega⟩
      · rw [if_neg stop]
        exact ih through' (by omega) (by omega)

theorem onPostSelect_walks :
    ((∃ j, Comes platform sets replies pollfds slct j ∧
        ¬ Stands platform sets replies pollfds j) ∧
      onPostSelect platform sets replies pollfds slct = none) ∨
    ∃ t, onPostSelect platform sets replies pollfds slct = some t ∧
      Walked platform sets replies pollfds slct t := by
  unfold onPostSelect
  by_cases positive : slct ≤ 0
  · have never : ∀ j, ¬ Comes platform sets replies pollfds slct j := by
      intro j comes
      have before := comes.2
      omega
    rw [if_pos positive]
    refine .inr ⟨_, rfl, Through.start.walked ?_ fun j => ?_⟩
    · rw [turn, services]
      omega
    · exact ⟨fun comes => absurd comes (never j), fun before => absurd before (Nat.not_lt_zero j)⟩
  · rw [if_neg positive]
    exact Through.start.walks (Nat.zero_add _) (by rw [turn]; omega)

end walk

/-! ### Every service -/

section main

variable {pollfds : StdVector PollFd} {slct : Int}

theorem Walked.servicesOnce_iff {t : PassState}
    (walked : Walked platform sets replies pollfds slct t) (distinct : Distinct pollfds.elems)
    (fresh : AddsFresh platform sets replies pollfds slct)
    (same : onPostSelect platform sets replies pollfds slct = some t) :
    ServicesOnce platform sets replies pollfds slct ↔
      t.serviced.Nodup ∧
      (∀ i fd, Comes platform sets replies pollfds slct i →
        ServedAt platform sets replies pollfds i fd →
          Kept replies pollfds (turn platform sets replies pollfds i) fd) ∧
      ∀ fd, sets.isSet fd = true →
        Kept replies pollfds (services platform sets replies pollfds slct) fd →
          fd ∈ t.serviced := by
  obtain ⟨distinct', viewed⟩ := vectorAfter_view distinct fresh (Nat.le_refl _)
  constructor
  · rintro ⟨u, eq, -, pass⟩
    obtain rfl := Option.some.inj (same.symm.trans eq)
    obtain ⟨nodup, each, all, -⟩ := pass_iff.mp pass
    simp only [Nat.zero_add, walked.count] at each all
    refine ⟨nodup, fun i fd comes served => ?_, fun fd ready kept =>
      all fd (view_isSome.mpr kept.1) ready kept.2⟩
    obtain ⟨listed, -, stays⟩ := each _ fd ((walked.served _ fd).mpr ⟨i, comes, served, rfl⟩)
    exact ⟨view_isSome.mp listed, stays⟩
  · rintro ⟨nodup, old, all⟩
    refine ⟨t, same, ?_, pass_iff.mpr ⟨nodup, fun k fd there => ?_, ?_, ?_⟩⟩
    · rw [Distinct, walked.alike.fds]
      exact distinct'
    · obtain ⟨i, comes, served, rfl⟩ := (walked.served k fd).mp there
      obtain ⟨listed, stays⟩ := old i fd comes served
      simp only [Nat.zero_add]
      exact ⟨view_isSome.mpr listed, served.2, stays⟩
    · intro fd listed ready stays
      simp only [Nat.zero_add, walked.count] at stays
      exact all fd ready ⟨view_isSome.mp listed, stays⟩
    · rw [walked.alike.view, viewed, walked.count]

theorem ServedAt.not_mem_take {i : Nat} {fd : Fd}
    (served : ServedAt platform sets replies pollfds i fd)
    (distinct : Distinct (onTurn platform sets replies pollfds i).elems) :
    fd ∉ ((onTurn platform sets replies pollfds i).elems.map PollFd.fd).take i := by
  intro before
  apply distinct_apart distinct before
  exact List.mem_iff_getElem?.mpr ⟨0, by rw [List.getElem?_drop, Nat.add_zero]; exact served.1⟩

theorem served_nodup {t : PassState} (walked : Walked platform sets replies pollfds slct t)
    (distinct : Distinct pollfds.elems) (fresh : AddsFresh platform sets replies pollfds slct)
    (old : ∀ i fd, Comes platform sets replies pollfds slct i →
      ServedAt platform sets replies pollfds i fd →
        Kept replies pollfds (turn platform sets replies pollfds i) fd) : t.serviced.Nodup := by
  rw [List.nodup_iff_getElem?_ne_getElem?]
  intro k m lt inside twice
  obtain ⟨fd, there⟩ : ∃ fd, t.serviced[m]? = some fd := ⟨_, List.getElem?_eq_getElem inside⟩
  obtain ⟨i, -, first, rfl⟩ := (walked.served k fd).mp (twice.trans there)
  obtain ⟨j, comes, second, rfl⟩ := (walked.served m fd).mp there
  have before : i < j := by
    by_contra late
    exact absurd (turn_mono (Nat.le_of_not_lt late)) (Nat.not_le_of_lt lt)
  apply second.not_mem_take (vectorAfter_view distinct fresh comes.le_services).1
  exact List.take_subset_take_left _ before
    ((old j fd comes second).behind first (Nat.le_of_lt before))

theorem ahead {i : Nat} {fd : Fd} (ready : sets.isSet fd = true)
    (kept : Kept replies pollfds (services platform sets replies pollfds slct) fd)
    (undisturbed : ∀ j, Comes platform sets replies pollfds slct j →
      Undisturbed platform sets replies pollfds slct j)
    (unserved : ∀ j, Comes platform sets replies pollfds slct j →
      ¬ ServedAt platform sets replies pollfds j fd)
    (come : ∀ j < i, Comes platform sets replies pollfds slct j) :
    fd ∈ ((onTurn platform sets replies pollfds i).elems.map PollFd.fd).drop i := by
  induction i with
  | zero => exact kept.1
  | succ i ih =>
    have comes := come i (Nat.lt_succ_self i)
    have here := ih fun j before => come j (by omega)
    have other : ((onTurn platform sets replies pollfds i).elems.map PollFd.fd)[i]? ≠ some fd :=
      fun there => unserved i comes ⟨there, ready⟩
    have later : fd ∈ following i (onTurn platform sets replies pollfds i) := by
      obtain ⟨d, there⟩ := List.mem_iff_getElem?.mp here
      rw [List.getElem?_drop] at there
      cases d with
      | zero => exact absurd there other
      | succ d =>
        refine List.mem_iff_getElem?.mpr ⟨d, ?_⟩
        rw [following, List.getElem?_drop, Nat.add_assoc, Nat.add_comm 1 d]
        exact there
    by_cases serves : ∃ g, ServedAt platform sets replies pollfds i g
    · obtain ⟨g, served⟩ := serves
      have moved := (undisturbed i comes).unmoved g served fd ready kept later
      rw [afterTurn_eq served] at moved
      exact moved
    · rw [onTurn, turn_idle (not_exists.mp serves)]
      exact later

theorem all_serviced {t : PassState} {fd : Fd}
    (walked : Walked platform sets replies pollfds slct t) (nodup : t.serviced.Nodup)
    (old : ∀ i fd, Comes platform sets replies pollfds slct i →
      ServedAt platform sets replies pollfds i fd →
        Kept replies pollfds (turn platform sets replies pollfds i) fd)
    (enough : readyCount sets pollfds ≤ services platform sets replies pollfds slct)
    (ready : sets.isSet fd = true) (listed : fd ∈ pollfds.elems.map PollFd.fd) :
    fd ∈ t.serviced := by
  have among : t.serviced ⊆ (pollfds.elems.map PollFd.fd).filter sets.isSet := by
    intro g mem
    obtain ⟨k, there⟩ := List.mem_iff_getElem?.mp mem
    obtain ⟨i, comes, served, -⟩ := (walked.served k g).mp there
    exact List.mem_filter.mpr ⟨(old i g comes served).1, served.2⟩
  have long : ((pollfds.elems.map PollFd.fd).filter sets.isSet).length ≤ t.serviced.length := by
    rw [← List.countP_eq_length_filter, walked.count]
    exact enough
  have perm := (nodup.subperm among).perm_of_length_le long
  exact perm.mem_iff.mpr (List.mem_filter.mpr ⟨listed, ready⟩)

theorem Walked.unmoved {t : PassState} {i : Nat} {g fd : Fd}
    (walked : Walked platform sets replies pollfds slct t) (distinct : Distinct pollfds.elems)
    (fresh : AddsFresh platform sets replies pollfds slct) (serviced : fd ∈ t.serviced)
    (comes : Comes platform sets replies pollfds slct i)
    (served : ServedAt platform sets replies pollfds i g)
    (kept : Kept replies pollfds (services platform sets replies pollfds slct) fd)
    (behind : fd ∈ following i (onTurn platform sets replies pollfds i)) :
    fd ∈ following i (afterTurn platform sets replies pollfds i) := by
  have apart : ∀ i, Comes platform sets replies pollfds slct i →
      Distinct (onTurn platform sets replies pollfds i).elems :=
    fun i comes => (vectorAfter_view distinct fresh comes.le_services).1
  rw [afterTurn_eq served]
  by_contra moved
  -- It has been serviced, as it is never removed: before place `i`, or after it.
  obtain ⟨k, there⟩ := List.mem_iff_getElem?.mp serviced
  obtain ⟨j, comes', its, -⟩ := (walked.served k fd).mp there
  rcases Nat.lt_or_ge i j with after | upto
  · have start : fd ∈ ((onTurn platform sets replies pollfds (i + 1)).elems.map
        PollFd.fd).take (i + 1) := by
      have within : turn platform sets replies pollfds (i + 1) ≤
          services platform sets replies pollfds slct := by
        rw [turn_served served]
        exact comes.lt_services served
      have listed : fd ∈ (onTurn platform sets replies pollfds (i + 1)).elems.map PollFd.fd :=
        List.mem_of_mem_take (kept.mono within).listed
      rw [← List.take_append_drop (i + 1) (List.map _ _)] at listed
      exact (List.mem_append.mp listed).resolve_right moved
    apply its.not_mem_take (apart j comes')
    exact List.take_subset_take_left _ after
      ((kept.mono comes'.le_services).mem_take (turn_mono after) start)
  · apply distinct_apart (apart i comes) (n := i + 1) _ behind
    exact List.take_subset_take_left _ (Nat.succ_le_succ upto)
      ((kept.mono comes.le_services).behind its upto)

theorem Walked.serviced {t : PassState} {fd : Fd}
    (walked : Walked platform sets replies pollfds slct t) (distinct : Distinct pollfds.elems)
    (enough : (readyCount sets pollfds : Int) ≤ slct)
    (fresh : AddsFresh platform sets replies pollfds slct)
    (undisturbed : ∀ i, Comes platform sets replies pollfds slct i →
      Undisturbed platform sets replies pollfds slct i) (nodup : t.serviced.Nodup)
    (ready : sets.isSet fd = true)
    (kept : Kept replies pollfds (services platform sets replies pollfds slct) fd) :
    fd ∈ t.serviced := by
  by_cases counted : slct ≤ turn platform sets replies pollfds pollfds.elems.length
  · exact all_serviced walked nodup (fun i fd comes => (undisturbed i comes).old fd)
      (by unfold services; omega) ready kept.1
  · -- The count does not stop the pass: what has not been serviced is ahead of every place.
    have come : ∀ j < pollfds.elems.length, Comes platform sets replies pollfds slct j := by
      intro j before
      have le := @turn_mono platform sets replies pollfds _ _ (Nat.le_of_lt before)
      exact ⟨before, by omega⟩
    have all : turn platform sets replies pollfds pollfds.elems.length =
        services platform sets replies pollfds slct := by
      unfold services
      omega
    by_contra missed
    have unserved : ∀ j, Comes platform sets replies pollfds slct j →
        ¬ ServedAt platform sets replies pollfds j fd := fun j comes served =>
      missed (List.mem_of_getElem? ((walked.served _ fd).mpr ⟨j, comes, served, rfl⟩))
    refine distinct_apart ?_ (n := pollfds.elems.length) ?_
      (ahead ready kept undisturbed unserved come)
    · exact (vectorAfter_view distinct fresh (Nat.le_of_eq all)).1
    · exact (kept.mono (Nat.le_of_eq all)).listed

/-- A pass accesses only current elements and services what is ready once if and only if no place
that comes is disturbed. -/
theorem pass_services_once_iff (platform : PollPlatform) (sets : FdSets)
    (replies : Nat → ServiceReply) (pollfds : StdVector PollFd) (slct : Int)
    (distinct : Distinct pollfds.elems) (enough : (readyCount sets pollfds : Int) ≤ slct)
    (fresh : AddsFresh platform sets replies pollfds slct) :
    ServicesOnce platform sets replies pollfds slct ↔
      ∀ i, Comes platform sets replies pollfds slct i →
        Undisturbed platform sets replies pollfds slct i := by
  rcases @onPostSelect_walks platform sets replies pollfds slct with
    ⟨⟨i, comes, falls⟩, outside⟩ | ⟨t, same, walked⟩
  · constructor
    · rintro ⟨t, walked, -⟩
      cases outside.symm.trans walked
    · exact fun undisturbed => absurd (undisturbed i comes).toStands falls
  · rw [walked.servicesOnce_iff distinct fresh same]
    constructor
    · rintro ⟨nodup, old, all⟩ i comes
      refine ⟨walked.stood i comes, fun g => old i g comes, fun g served fd ready kept => ?_⟩
      exact walked.unmoved distinct fresh (all fd ready kept) comes served kept
    · intro undisturbed
      have old := fun i fd comes => (undisturbed i comes).old fd
      have nodup := served_nodup walked distinct fresh old
      exact ⟨nodup, old, fun fd => walked.serviced distinct enough fresh undisturbed nodup⟩

end main

end proofs

def twoReady : FdSets := ⟨fun fd => fd == 3 || fd == 4, fun _ => false, fun _ => false⟩

def doubling : PollPlatform := ⟨1, 4, 16, (2 * ·)⟩

/-- While 3 is serviced a descriptor is added that fits in, and takes the place of one that is
closed behind the last that is ready. -/
theorem pass_services_once_closing : ServicesOnce doubling twoReady
    (fun n => ⟨if n = 0 then [.add 9 1, .del 5] else [], 1⟩)
    ⟨[⟨3, 1, 0⟩, ⟨4, 1, 0⟩, ⟨5, 1, 0⟩], 4, 0, by decide⟩ 2 := by
  refine (pass_services_once_iff _ _ _ _ _ (by decide) (by decide) ?_).mpr ?_
  · rintro (_ | _ | calls) before
    · exact ⟨rfl, trivial, trivial⟩
    · trivial
    · change calls + 2 < 2 at before
      omega
  · rintro (_ | _ | _ | i) comes
    · refine ⟨⟨by decide, fun _ _ _ => by decide⟩, ?_, fun _ _ fd ready _ behind => ?_⟩
      · rintro g ⟨here, -⟩
        obtain rfl := Option.some.inj here
        exact ⟨by decide, by decide⟩
      · change fd ∈ [4, 5] at behind
        obtain rfl | rfl : fd = 4 ∨ fd = 5 := by simpa using behind
        · decide
        · cases ready
    · refine ⟨⟨by decide, fun _ _ _ => by decide⟩, ?_, fun _ _ _ _ _ behind => behind⟩
      rintro g ⟨here, -⟩
      obtain rfl := Option.some.inj here
      exact ⟨by decide, by decide⟩
    · exact absurd comes (by decide)
    · have inside := comes.1
      change i + 3 < 3 at inside
      omega

/-- The service of 3 closes it: 4 moves into its place, the vector ends where the next access is,
and what that access reads is no element. -/
theorem closing_ends_outside : ¬ ServicesOnce doubling twoReady (fun _ => ⟨[.del 3], 1⟩)
    ⟨[⟨3, 1, 0⟩, ⟨4, 1, 0⟩], 2, 0, by decide⟩ 2 := by
  rintro ⟨t, walked, -⟩
  have outside : onPostSelect doubling twoReady (fun _ => ⟨[.del 3], 1⟩)
      ⟨[⟨3, 1, 0⟩, ⟨4, 1, 0⟩], 2, 0, by decide⟩ 2 = none := rfl
  cases outside.symm.trans walked

end HumbleNet

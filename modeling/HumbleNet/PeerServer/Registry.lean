import Mathlib.Logic.Function.Basic
import Mathlib.Logic.Relation
import HumbleNet.Message

/-! What the server keeps books about, apart from buffers and aliases: which connection
belongs to which websocket, who is a peer of which game under which id. Websockets,
connections and games are arbitrary; the tables are functions. -/
namespace HumbleNet.PeerServer

/-- What the books say about a connection. Id 0 is that of one without a hello. -/
structure Member (W G : Type) where
  wsi : W
  peerId : PeerId
  game : Option G

structure Roster (C : Type) where
  next : PeerId
  peers : PeerId → Option C

@[ext] structure Registry (W C G : Type) where
  owner : W → Option C
  member : C → Option (Member W G)
  roster : G → Option (Roster C)
  issued : G → Nat

namespace Registry

open Function

variable {W C G : Type}

def empty : Registry W C G := ⟨fun _ => none, fun _ => none, fun _ => none, fun _ => 0⟩

def newRoster : Roster C := ⟨1, fun _ => none⟩

def Roster.join (ro : Roster C) (c : C) : Roster C :=
  ⟨ro.next + 1, update ro.peers ro.next (some ((ro.peers ro.next).getD c))⟩

def Roster.leave (ro : Roster C) (id : PeerId) : Roster C :=
  { ro with peers := update ro.peers id none }

theorem Roster.join_peers {ro : Roster C} (c : C) (free : ro.peers ro.next = none) (id : PeerId) :
    (Roster.join ro c).peers id = if id = ro.next then some c else ro.peers id := by
  change update ro.peers ro.next (some ((ro.peers ro.next).getD c)) id = _
  rw [free, Option.getD_none, update_apply]

theorem Roster.leave_peers (ro : Roster C) (gone id : PeerId) :
    (Roster.leave ro gone).peers id = if id = gone then none else ro.peers id :=
  update_apply ro.peers gone none id

section changes

variable [DecidableEq W] [DecidableEq C] [DecidableEq G]

/-- The changes the callbacks make to the books. -/
inductive Step : Registry W C G → Registry W C G → Prop where
  | opened {r : Registry W C G} {w : W} {c : C} (newWsi : r.owner w = none)
    (newConn : r.member c = none) :
    Step r { r with
      owner := update r.owner w (some c)
      member := update r.member c (some ⟨w, 0, none⟩) }
  | created {r : Registry W C G} {g : G} (newGame : r.roster g = none) :
    Step r { r with roster := update r.roster g (some newRoster) }
  | named {r : Registry W C G} {c : C} {m : Member W G} {game : Option G}
    (there : r.member c = some m) (unseated : m.peerId = 0)
    (known : ∀ g, game = some g → ∃ ro, r.roster g = some ro) :
    Step r { r with member := update r.member c (some { m with game := game }) }
  | joined {r : Registry W C G} {c : C} {m : Member W G} {g : G} {ro : Roster C}
    (there : r.member c = some m) (unseated : m.peerId = 0) (game : m.game = some g)
    (known : r.roster g = some ro) :
    Step r { r with
      member := update r.member c (some { m with peerId := ro.next })
      roster := update r.roster g (some (Roster.join ro c))
      issued := update r.issued g (r.issued g + 1) }
  | dropped {r : Registry W C G} {w : W} {c : C} {m : Member W G}
    (owned : r.owner w = some c) (there : r.member c = some m) (unseated : m.peerId = 0) :
    Step r { r with
      owner := update r.owner w none
      member := update r.member c none }
  | left {r : Registry W C G} {w : W} {c : C} {m : Member W G} {g : G} {ro : Roster C}
    (owned : r.owner w = some c) (there : r.member c = some m) (seated : m.peerId ≠ 0)
    (game : m.game = some g) (known : r.roster g = some ro) :
    Step r { r with
      owner := update r.owner w none
      member := update r.member c none
      roster := update r.roster g (some (Roster.leave ro m.peerId)) }

abbrev Run (r r' : Registry W C G) : Prop := Relation.ReflTransGen Step r r'

end changes

structure Linked (r : Registry W C G) : Prop where
  live : ∀ w c, r.owner w = some c → r.member c ≠ none
  owned : ∀ w c m, r.owner w = some c → r.member c = some m → m.wsi = w
  owns : ∀ c m, r.member c = some m → r.owner m.wsi = some c
  seated : ∀ c m, r.member c = some m → m.peerId ≠ 0 → m.game ≠ none
  known : ∀ c m g, r.member c = some m → m.game = some g → r.roster g ≠ none

structure Exact (r : Registry W C G) : Prop where
  nonzero : ∀ g ro id c, r.roster g = some ro → ro.peers id = some c → id ≠ 0
  open_conn : ∀ g ro id c, r.roster g = some ro → ro.peers id = some c → r.member c ≠ none
  listed : ∀ g ro id c m, r.roster g = some ro → ro.peers id = some c → r.member c = some m →
    m.game = some g ∧ m.peerId = id
  present : ∀ c m g ro, r.member c = some m → m.game = some g → m.peerId ≠ 0 →
    r.roster g = some ro → ro.peers m.peerId = some c
  below : ∀ c m g ro, r.member c = some m → m.game = some g → m.peerId ≠ 0 →
    r.roster g = some ro → m.peerId.toNat < ro.next.toNat
  counted : ∀ g ro, r.roster g = some ro → ro.next.toNat = r.issued g + 1
  uncounted : ∀ g, r.roster g = none → r.issued g = 0

theorem linked_empty : Linked (empty : Registry W C G) where
  live := by simp [empty]
  owned := by simp [empty]
  owns := by simp [empty]
  seated := by simp [empty]
  known := by simp [empty]

theorem exact_empty : Exact (empty : Registry W C G) where
  nonzero := by simp [empty]
  open_conn := by simp [empty]
  listed := by simp [empty]
  present := by simp [empty]
  below := by simp [empty]
  counted := by simp [empty]
  uncounted := by simp [empty]

section steps

variable [DecidableEq W] [DecidableEq C] [DecidableEq G]

theorem Linked.step {r r' : Registry W C G} (linked : Linked r) (step : Step r r') :
    Linked r' := by
  obtain ⟨live, owned, owns, seated, known⟩ := linked
  cases step with
  | opened newWsi newConn => constructor <;> grind [update_apply]
  | created newGame => constructor <;> grind [update_apply]
  | named there unseated exist => constructor <;> grind [update_apply]
  | joined there unseated game exist => constructor <;> grind [update_apply]
  | dropped own there unseated => constructor <;> grind [update_apply]
  | left own there seat game exist => constructor <;> grind [update_apply]

theorem Exact.step {r r' : Registry W C G} (linked : Linked r) (exact_r : Exact r)
    (step : Step r r') (few : ∀ g, r'.issued g < 2 ^ 32 - 1) : Exact r' := by
  obtain ⟨live, owned, owns, seated, known⟩ := linked
  obtain ⟨nonzero, open_conn, listed, present, below, counted, uncounted⟩ := exact_r
  cases step with
  | opened newWsi newConn => constructor <;> grind [update_apply]
  | created newGame =>
    have first : (newRoster : Roster C).next.toNat = 1 := rfl
    have nobody : ∀ id, (newRoster : Roster C).peers id = none := fun _ => rfl
    constructor <;> grind [update_apply]
  | named there unseated exist => constructor <;> grind [update_apply]
  | @joined c m g ro there unseated game exist =>
    have issued := few g
    simp only [update_self] at issued
    have next := counted g ro exist
    have room : (ro.next + 1).toNat = ro.next.toNat + 1 := by
      rw [UInt32.toNat_add]
      exact Nat.mod_eq_of_lt (by change ro.next.toNat + 1 < 2 ^ 32; omega)
    have id_pos : ro.next ≠ 0 := by
      intro zero
      rw [zero] at next
      simp at next
    -- the id about to be handed out is above every id in use
    have free : ro.peers ro.next = none := by
      by_contra taken
      obtain ⟨c', hc'⟩ := Option.ne_none_iff_exists'.mp taken
      obtain ⟨m', hm'⟩ := Option.ne_none_iff_exists'.mp (open_conn g ro _ c' exist hc')
      obtain ⟨hg, hid⟩ := listed g ro _ c' m' exist hc' hm'
      have lt := below c' m' g ro hm' hg (hid ▸ id_pos) exist
      rw [hid] at lt
      exact Nat.lt_irrefl _ lt
    have peers := Roster.join_peers c free
    have above : (Roster.join ro c).next.toNat = ro.next.toNat + 1 := room
    generalize Roster.join ro c = ro' at peers above
    constructor <;> grind [update_apply]
  | dropped own there unseated => constructor <;> grind [update_apply]
  | @left w c m g ro own there seat game exist =>
    have peers := Roster.leave_peers ro m.peerId
    have next : (Roster.leave ro m.peerId).next = ro.next := rfl
    generalize Roster.leave ro m.peerId = ro' at peers next
    constructor <;> grind [update_apply]

theorem issued_step {r r' : Registry W C G} (step : Step r r') (g : G) :
    r.issued g ≤ r'.issued g := by
  cases step with
  | joined =>
    simp only [update_apply]
    split
    · rename_i same
      rw [same]
      exact Nat.le_succ _
    · exact Nat.le_refl _
  | _ => exact Nat.le_refl _

theorem issued_run {r r' : Registry W C G} (run : Run r r') (g : G) :
    r.issued g ≤ r'.issued g := by
  induction run with
  | refl => exact Nat.le_refl _
  | tail _ step ih => exact Nat.le_trans ih (issued_step step g)

theorem Linked.run {r r' : Registry W C G} (linked : Linked r) (run : Run r r') : Linked r' := by
  induction run with
  | refl => exact linked
  | tail _ step ih => exact ih.step step

theorem Exact.run {r r' : Registry W C G} (linked : Linked r) (exact_r : Exact r)
    (run : Run r r') (few : ∀ g, r'.issued g < 2 ^ 32 - 1) : Exact r' := by
  induction run with
  | refl => exact exact_r
  | tail before step ih =>
    have earlier := fun g => Nat.lt_of_le_of_lt (issued_step step g) (few g)
    exact (ih earlier).step (linked.run before) step few

end steps

end Registry

end HumbleNet.PeerServer

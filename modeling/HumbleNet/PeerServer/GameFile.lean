import HumbleNet.PeerServer.Server
import HumbleNet.Lib.Numerals

/-! The flat file of games: what `GameDBFlatFile::loadFile` makes of any content, and which lines
it is to take. -/
namespace HumbleNet.PeerServer

open Text Numerals

inductive StdException where
  | invalidArgument
  | outOfRange
deriving DecidableEq

/-- An `unsigned long` has 32 or 64 bits. -/
inductive LongWidth where
  | bits32
  | bits64

def LongWidth.ulongMax : LongWidth → Nat
  | .bits32 => 2 ^ 32 - 1
  | .bits64 => 2 ^ 64 - 1

def InInt (v : Int) : Prop := -2147483648 ≤ v ∧ v ≤ 2147483647

instance (v : Int) : Decidable (InInt v) := inferInstanceAs (Decidable (_ ∧ _))

def stoi (text : Bytes) : Except StdException Int :=
  match integer (cStr text) with
  | none => .error .invalidArgument
  | some (v, _) => if InInt v then .ok v else .error .outOfRange

def stoul (width : LongWidth) (text : Bytes) : Except StdException Nat :=
  match integer (cStr text) with
  | none => .error .invalidArgument
  | some (v, _) =>
    if v.natAbs ≤ width.ulongMax then .ok (v % (width.ulongMax + 1)).toNat
    else .error .outOfRange

/-- The body of the loop of `loadFile`; `none` is `continue`. -/
def loadLine (width : LongWidth) (line : Bytes) :
    Except StdException (Option (Bytes × GameRecord)) :=
  if line.head? = some (byte '#') then .ok none else
  match findFrom (byte ',') 0 line with
  | none => .ok none
  | some gameEnd =>
    match findFrom (byte ',') (gameEnd + 1) line with
    | none => .ok none
    | some tokEnd =>
      match findFrom (byte ',') (tokEnd + 1) line with
      | none => .ok none
      | some secEnd =>
        match findFrom (byte ',') (secEnd + 1) line with
        | none => .ok none
        | some valEnd => do
          let active ← stoi (line.drop (valEnd + 1))
          if active = 0 then return none
          let gameId ← stoul width (line.take gameEnd)
          let token := (line.drop (gameEnd + 1)).take (tokEnd - gameEnd - 1)
          let secret := (line.drop (tokEnd + 1)).take (secEnd - tokEnd - 1)
          let verify ← stoi ((line.drop (secEnd + 1)).take (valEnd - secEnd - 1))
          return some (token, ⟨UInt32.ofNat gameId, secret, decide (verify ≠ 0)⟩)

def lines (content : Bytes) : List Bytes :=
  let pieces := content.splitOn (byte '\n')
  if pieces.getLast? = some [] then pieces.dropLast else pieces

def loadFile (width : LongWidth) (content : Bytes) :
    Except StdException (StdMap Bytes GameRecord) :=
  (lines content).foldlM (fun games line => do
    match ← loadLine width line with
    | none => pure games
    | some (token, record) => pure (games.emplace token record)) ∅

/-! ### The lines that count -/

structure Fields where
  id : Bytes
  token : Bytes
  secret : Bytes
  verify : Bytes
  active : Bytes

def fields (line : Bytes) : Option Fields :=
  (cut (byte ',') line).bind fun (id, s) =>
  (cut (byte ',') s).bind fun (token, s) =>
  (cut (byte ',') s).bind fun (secret, s) =>
  (cut (byte ',') s).map fun (verify, active) => ⟨id, token, secret, verify, active⟩

def number (field : Bytes) : Option Int := (integer (cStr field)).map Prod.fst

structure Reading where
  id : Int
  token : Bytes
  secret : Bytes
  verify : Bool

def Reading.InRange (r : Reading) : Prop := 0 ≤ r.id ∧ r.id < 2 ^ 32

instance (r : Reading) : Decidable r.InRange := inferInstanceAs (Decidable (_ ∧ _))

def Reading.record (r : Reading) : GameRecord := ⟨UInt32.ofInt r.id, r.secret, r.verify⟩

def readFields (f : Fields) : Option Reading :=
  (number f.active).bind fun active =>
  (number f.id).bind fun id =>
  (number f.verify).bind fun verify =>
  if InInt active ∧ active ≠ 0 ∧ InInt verify then
    some ⟨id, f.token, f.secret, decide (verify ≠ 0)⟩
  else none

def activeLine (line : Bytes) : Option Reading :=
  if line.head? = some (byte '#') then none else (fields line).bind readFields

def readings (content : Bytes) : List Reading := (lines content).filterMap activeLine

/-- The first active well-formed line with a token. -/
def firstWellFormed (content token : Bytes) : Option Reading :=
  (readings content).find? fun r => decide (r.InRange ∧ r.token = token)

/-- The file is loaded, and a token gives what the first active well-formed line with it has;
two lines with different ids do not give one id. -/
def Faithful (width : LongWidth) (content : Bytes) : Prop :=
  ∃ games, loadFile width content = .ok games ∧
    (∀ token record, ((GameDB.flatFile games).findByToken token).1 = some record ↔
      ∃ r, firstWellFormed content token = some r ∧ (record.gameId.toNat : Int) = r.id ∧
        record.secret = r.secret ∧ record.verify = r.verify) ∧
    ∀ token token' record record' r r',
      ((GameDB.flatFile games).findByToken token).1 = some record →
      ((GameDB.flatFile games).findByToken token').1 = some record' →
      firstWellFormed content token = some r → firstWellFormed content token' = some r' →
      r.id ≠ r'.id → record.gameId ≠ record'.gameId

section proofs

variable {width : LongWidth}

def loadFields (width : LongWidth) (f : Fields) :
    Except StdException (Option (Bytes × GameRecord)) := do
  let active ← stoi f.active
  if active = 0 then return none
  let gameId ← stoul width f.id
  let verify ← stoi f.verify
  return some (f.token, ⟨UInt32.ofNat gameId, f.secret, decide (verify ≠ 0)⟩)

theorem loadLine_eq (line : Bytes) : loadLine width line =
    if line.head? = some (byte '#') then .ok none
    else match fields line with
      | none => .ok none
      | some f => loadFields width f := by
  unfold loadLine
  by_cases comment : line.head? = some (byte '#')
  · rw [if_pos comment, if_pos comment]
  rw [if_neg comment, if_neg comment, fields]
  rcases findFrom_cases (byte ',') 0 line with ⟨cut, find⟩ | ⟨id, s, gameEnd, cut, find, front, rfl⟩
  · rw [List.drop_zero] at cut
    simp only [cut, find, Option.bind_none]
  rw [List.drop_zero] at cut front
  rw [Nat.sub_zero] at front
  simp only [cut, find, Option.bind_some]
  rcases findFrom_cases (byte ',') (gameEnd + 1) line with
    ⟨cut, find⟩ | ⟨token, s, tokEnd, cut, find, token, rfl⟩
  · simp only [cut, find, Option.bind_none]
  simp only [cut, find, Option.bind_some]
  rcases findFrom_cases (byte ',') (tokEnd + 1) line with
    ⟨cut, find⟩ | ⟨secret, s, secEnd, cut, find, secret, rfl⟩
  · simp only [cut, find, Option.bind_none]
  simp only [cut, find, Option.bind_some]
  rcases findFrom_cases (byte ',') (secEnd + 1) line with
    ⟨cut, find⟩ | ⟨verify, s, valEnd, cut, find, verify, rfl⟩
  · simp only [cut, find, Option.map_none]
  simp only [cut, find, Option.map_some, loadFields, Nat.sub_sub, front, token, secret, verify]

/-- `active` is the number of an `int`; if the line is active, `verify` is one too, and the id is
one of an `unsigned long`, negated or not. -/
def Readable (width : LongWidth) (f : Fields) : Prop :=
  ∃ active, number f.active = some active ∧ InInt active ∧ (active ≠ 0 →
    (∃ id, number f.id = some id ∧ id.natAbs ≤ width.ulongMax) ∧
      ∃ verify, number f.verify = some verify ∧ InInt verify)

theorem stoi_ok {field : Bytes} {v : Int} :
    stoi field = .ok v ↔ number field = some v ∧ InInt v := by
  unfold stoi number
  cases integer (cStr field) with
  | none => simp
  | some read =>
    by_cases inside : InInt read.1
    · simp only [inside, if_true, Except.ok.injEq, Option.map_some, Option.some.injEq]
      constructor
      · rintro rfl
        exact ⟨rfl, inside⟩
      · exact And.left
    · simp only [inside, if_false, Option.map_some, Option.some.injEq, reduceCtorEq, false_iff]
      rintro ⟨rfl, small⟩
      exact inside small

theorem stoul_ok {field : Bytes} {n : Nat} : stoul width field = .ok n ↔
    ∃ v, number field = some v ∧ v.natAbs ≤ width.ulongMax ∧
      (v % (width.ulongMax + 1)).toNat = n := by
  unfold stoul number
  cases integer (cStr field) with
  | none => simp
  | some read =>
    by_cases fits : read.1.natAbs ≤ width.ulongMax
    · simp [fits]
    · simp [fits]

theorem gameId_eq (v : Int) :
    UInt32.ofNat (v % (width.ulongMax + 1)).toNat = UInt32.ofInt v := by
  apply UInt32.toNat_inj.mp
  rw [UInt32.toNat_ofNat']
  change _ = (UInt32.ofNat (v % 2 ^ 32).toNat).toNat
  rw [UInt32.toNat_ofNat']
  cases width with
  | bits32 =>
    change (v % 4294967296).toNat % 2 ^ 32 = _
    omega
  | bits64 =>
    change (v % 18446744073709551616).toNat % 2 ^ 32 = _
    omega

theorem loadFields_active {f : Fields} {active : Int} (first : stoi f.active = .ok active)
    (some : active ≠ 0) : loadFields width f = (stoul width f.id).bind fun gameId =>
      (stoi f.verify).bind fun verify =>
        .ok (.some (f.token, ⟨UInt32.ofNat gameId, f.secret, decide (verify ≠ 0)⟩)) := by
  rw [loadFields, first]
  change (if active = 0 then _ else _) = _
  rw [if_neg some]
  rfl

theorem loadFields_cases (f : Fields) :
    (¬ Readable width f ∧ ∃ e, loadFields width f = .error e) ∨
      (Readable width f ∧
        loadFields width f = .ok ((readFields f).map fun r => (r.token, r.record))) := by
  cases first : stoi f.active with
  | error e =>
    refine .inl ⟨?_, e, by rw [loadFields, first]; rfl⟩
    rintro ⟨active, read, inside, -⟩
    rw [stoi_ok.mpr ⟨read, inside⟩] at first
    cases first
  | ok active =>
    obtain ⟨read, inside⟩ := stoi_ok.mp first
    by_cases zero : active = 0
    · refine .inr ⟨⟨active, read, inside, fun other => absurd zero other⟩, ?_⟩
      have none : readFields f = none := by
        simp only [readFields, read, zero, ne_eq, not_true, false_and, and_false, if_false,
          Option.bind_some]
        cases number f.id <;> cases number f.verify <;> rfl
      rw [loadFields, first, none]
      simp only [zero]
      rfl
    · rw [loadFields_active first zero]
      cases second : stoul width f.id with
      | error e =>
        refine .inl ⟨?_, e, rfl⟩
        rintro ⟨active', read', -, rest⟩
        obtain rfl := Option.some.inj (read.symm.trans read')
        obtain ⟨id, known, fits⟩ := (rest zero).1
        rw [stoul_ok.mpr ⟨id, known, fits, rfl⟩] at second
        cases second
      | ok gameId =>
        obtain ⟨id, known, fits, rfl⟩ := stoul_ok.mp second
        cases third : stoi f.verify with
        | error e =>
          refine .inl ⟨?_, e, rfl⟩
          rintro ⟨active', read', -, rest⟩
          obtain rfl := Option.some.inj (read.symm.trans read')
          obtain ⟨verify, flag, small⟩ := (rest zero).2
          rw [stoi_ok.mpr ⟨flag, small⟩] at third
          cases third
        | ok verify =>
          obtain ⟨flag, small⟩ := stoi_ok.mp third
          refine .inr ⟨?_, ?_⟩
          · exact ⟨active, read, inside, fun _ => ⟨⟨id, known, fits⟩, verify, flag, small⟩⟩
          have reading : readFields f =
              some ⟨id, f.token, f.secret, decide (verify ≠ 0)⟩ := by
            simp only [readFields, read, known, flag, inside, small, ne_eq, zero, not_false_eq_true,
              and_self, if_true, Option.bind_some]
          rw [reading, Option.map_some, Reading.record, ← gameId_eq]
          rfl

def Loads (width : LongWidth) (line : Bytes) : Prop :=
  line.head? = some (byte '#') ∨ ∀ f ∈ fields line, Readable width f

theorem loadLine_cases (line : Bytes) :
    (¬ Loads width line ∧ ∃ e, loadLine width line = .error e) ∨
    (Loads width line ∧
      loadLine width line = .ok ((activeLine line).map fun r => (r.token, r.record))) := by
  rw [loadLine_eq, activeLine, Loads]
  by_cases comment : line.head? = some (byte '#')
  · exact .inr ⟨.inl comment, by rw [if_pos comment, if_pos comment]; rfl⟩
  · rw [if_neg comment, if_neg comment]
    cases cut : fields line with
    | none => exact .inr ⟨.inr (by simp), rfl⟩
    | some f => simpa [comment] using loadFields_cases f

def enter (games : StdMap Bytes GameRecord) (r : Reading) : StdMap Bytes GameRecord :=
  games.emplace r.token r.record

theorem loadFile_cases (content : Bytes) :
    ((∃ line ∈ lines content, ¬ Loads width line) ∧ ∃ e, loadFile width content = .error e) ∨
      ((∀ line ∈ lines content, Loads width line) ∧
        loadFile width content = .ok ((readings content).foldl enter ∅)) := by
  unfold loadFile readings
  generalize (∅ : StdMap Bytes GameRecord) = games
  induction lines content generalizing games with
  | nil => exact .inr ⟨by simp, rfl⟩
  | cons line rest ih =>
    rw [List.foldlM_cons]
    rcases @loadLine_cases width line with ⟨bad, e, throws⟩ | ⟨fine, loaded⟩
    · refine .inl ⟨⟨line, List.mem_cons_self, bad⟩, e, ?_⟩
      rw [throws]
      rfl
    · rw [loaded]
      cases reading : activeLine line with
      | none =>
        rw [List.filterMap_cons_none reading]
        rcases ih games with ⟨⟨other, listed, bad⟩, throws⟩ | ⟨all, done⟩
        · exact .inl ⟨⟨other, List.mem_cons_of_mem _ listed, bad⟩, throws⟩
        · exact .inr ⟨List.forall_mem_cons.mpr ⟨fine, all⟩, done⟩
      | some r =>
        rw [List.filterMap_cons_some reading, List.foldl_cons]
        rcases ih (enter games r) with ⟨⟨other, listed, bad⟩, throws⟩ | ⟨all, done⟩
        · exact .inl ⟨⟨other, List.mem_cons_of_mem _ listed, bad⟩, throws⟩
        · exact .inr ⟨List.forall_mem_cons.mpr ⟨fine, all⟩, done⟩

theorem lookup_enter (rs : List Reading) (token : Bytes) (games : StdMap Bytes GameRecord) :
    (rs.foldl enter games).lookup token =
      (games.lookup token).or ((rs.find? (·.token = token)).map Reading.record) := by
  induction rs generalizing games with
  | nil => simp
  | cons r rs ih =>
    rw [List.foldl_cons, ih, enter, StdMap.lookup_emplace]
    by_cases here : token = r.token
    · subst here
      rw [if_pos rfl, List.find?_cons_of_pos (by simp), Option.map_some]
      cases games.lookup r.token <;> rfl
    · rw [if_neg here, List.find?_cons_of_neg (by simpa using Ne.symm here)]

theorem findByToken_enter (rs : List Reading) (token : Bytes) :
    ((GameDB.flatFile (rs.foldl enter ∅)).findByToken token).1 =
      (rs.find? (·.token = token)).map Reading.record := by
  change (rs.foldl enter ∅).lookup token = _
  rw [lookup_enter, AList.lookup_empty, Option.none_or]

theorem record_eq_iff {r : Reading} (range : r.InRange) (record : GameRecord) :
    r.record = record ↔ (record.gameId.toNat : Int) = r.id ∧ record.secret = r.secret ∧
      record.verify = r.verify := by
  obtain ⟨low, high⟩ := range
  obtain ⟨gameId, secret, verify⟩ := record
  have id : UInt32.ofInt r.id = gameId ↔ (gameId.toNat : Int) = r.id := by
    rw [← UInt32.toNat_inj]
    change (UInt32.ofNat (r.id % 2 ^ 32).toNat).toNat = _ ↔ _
    rw [UInt32.toNat_ofNat']
    omega
  rw [Reading.record, GameRecord.mk.injEq]
  exact and_congr id (and_congr eq_comm eq_comm)

theorem firstWellFormed_some {content token : Bytes} {r : Reading}
    (first : firstWellFormed content token = some r) : r.InRange ∧ r.token = token := by
  simpa using List.find?_some first

theorem firstWellFormed_of_first {content token : Bytes} {r : Reading}
    (first : (readings content).find? (·.token = token) = some r) (range : r.InRange) :
    firstWellFormed content token = some r := by
  obtain ⟨here, front, back, list, others⟩ := List.find?_eq_some_iff_append.mp first
  refine List.find?_eq_some_iff_append.mpr ⟨by simp [range, of_decide_eq_true here],
    front, back, list, fun other listed => ?_⟩
  have differs : other.token ≠ token := by simpa using others other listed
  simp [differs]

theorem firstWellFormed_none {content token : Bytes}
    (none : (readings content).find? (·.token = token) = none) :
    firstWellFormed content token = .none := by
  rw [List.find?_eq_none] at none
  refine List.find?_eq_none.mpr fun r listed => ?_
  have differs : r.token ≠ token := by simpa using none r listed
  simp [differs]

end proofs

/-- Every line can be loaded, and the first active line with a token has its id in range, or else
the values of the first well-formed line with that token. -/
def WellKept (width : LongWidth) (content : Bytes) : Prop :=
  (∀ line ∈ lines content, Loads width line) ∧
    ∀ token r, (readings content).find? (·.token = token) = some r → r.InRange ∨
      ∃ r', firstWellFormed content token = some r' ∧ r'.record = r.record

theorem WellKept.found {width : LongWidth} {content : Bytes} (kept : WellKept width content)
    (token : Bytes) :
    ((GameDB.flatFile ((readings content).foldl enter ∅)).findByToken token).1 =
      (firstWellFormed content token).map Reading.record := by
  rw [findByToken_enter]
  cases first : (readings content).find? (·.token = token) with
  | none => rw [firstWellFormed_none first]
  | some r =>
    rcases kept.2 token r first with range | ⟨r', wellFormed, same⟩
    · rw [firstWellFormed_of_first first range]
    · rw [wellFormed, Option.map_some, Option.map_some, same]

/-- The file is loaded faithfully exactly when it is well kept. -/
theorem loadFile_faithful_iff (width : LongWidth) (content : Bytes) :
    Faithful width content ↔ WellKept width content := by
  constructor
  · rintro ⟨games, loaded, found, -⟩
    rcases @loadFile_cases width content with ⟨-, e, throws⟩ | ⟨all, done⟩
    · cases loaded.symm.trans throws
    · obtain rfl := Except.ok.inj (loaded.symm.trans done)
      refine ⟨all, fun token r first => .inr ?_⟩
      have here : ((GameDB.flatFile ((readings content).foldl enter ∅)).findByToken token).1 =
          some r.record := by rw [findByToken_enter, first, Option.map_some]
      obtain ⟨r', wellFormed, same⟩ := (found token r.record).mp here
      exact ⟨r', wellFormed, (record_eq_iff (firstWellFormed_some wellFormed).1 _).mpr same⟩
  · intro kept
    rcases @loadFile_cases width content with ⟨⟨line, listed, bad⟩, -⟩ | ⟨-, done⟩
    · exact absurd (kept.1 line listed) bad
    · have found : ∀ token record, ((GameDB.flatFile ((readings content).foldl enter ∅)).findByToken
          token).1 = some record ↔ ∃ r, firstWellFormed content token = some r ∧
            (record.gameId.toNat : Int) = r.id ∧ record.secret = r.secret ∧
              record.verify = r.verify := by
        intro token record
        rw [kept.found, Option.map_eq_some_iff]
        constructor
        · rintro ⟨r, wellFormed, same⟩
          exact ⟨r, wellFormed, (record_eq_iff (firstWellFormed_some wellFormed).1 _).mp same⟩
        · rintro ⟨r, wellFormed, same⟩
          exact ⟨r, wellFormed, (record_eq_iff (firstWellFormed_some wellFormed).1 _).mpr same⟩
      refine ⟨_, done, found, ?_⟩
      intro token token' record record' r r' here here' first first' differ same
      obtain ⟨s, wellFormed, id, -⟩ := (found token record).mp here
      obtain ⟨s', wellFormed', id', -⟩ := (found token' record').mp here'
      obtain rfl := Option.some.inj (first.symm.trans wellFormed)
      obtain rfl := Option.some.inj (first'.symm.trans wellFormed')
      rw [same] at id
      exact differ (id.symm.trans id')

def namedFlag : Bytes := ofChars ['1', ',', 't', ',', 's', ',', '0', ',', 'y', 'e', 's']

/-- It throws. -/
theorem named_flag_not_faithful : ¬ Faithful .bits64 namedFlag := by
  rintro ⟨games, loaded, -⟩
  have throws : loadFile .bits64 namedFlag = .error .invalidArgument := by decide +kernel
  cases loaded.symm.trans throws

end HumbleNet.PeerServer

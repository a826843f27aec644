import Mathlib.Data.List.Basic

/-! Linear feedback shift registers: bits are fed in at the high end, and the polynomial is
added whenever a one leaves there. While the polynomial has a constant term nothing that is
fed within one width of the register is lost. -/
namespace ShiftRegister

variable {w : Nat} (poly : BitVec w)

def shift (c : BitVec w) : BitVec w :=
  if c.msb then (c <<< 1) ^^^ poly else c <<< 1

def shifts : Nat → BitVec w → BitVec w
  | 0, c => c
  | n + 1, c => shifts n (shift poly c)

/-- Bits placed at the high end of the register, the first one highest. -/
def top : List Bool → BitVec w
  | [] => 0
  | b :: bs => (if b then BitVec.intMin w else 0) ^^^ (top bs >>> 1)

def feed (c : BitVec w) (b : Bool) : BitVec w := shift poly (c ^^^ top [b])

def run (c : BitVec w) (bs : List Bool) : BitVec w := bs.foldl (feed poly) c

theorem run_append (c : BitVec w) (bs cs : List Bool) :
    run poly c (bs ++ cs) = run poly (run poly c bs) cs := List.foldl_append

/-! ### Shifting is linear and loses nothing -/

theorem shift_xor (a b : BitVec w) : shift poly (a ^^^ b) = shift poly a ^^^ shift poly b := by
  have cancel : ∀ x y : BitVec w, x ^^^ y = (x ^^^ poly) ^^^ (y ^^^ poly) := by
    intro x y
    rw [BitVec.xor_assoc, BitVec.xor_comm poly, BitVec.xor_assoc, BitVec.xor_self, BitVec.xor_zero]
  simp only [shift, BitVec.msb_xor, BitVec.shiftLeft_xor_distrib]
  cases a.msb <;> cases b.msb
  · rfl
  · exact BitVec.xor_assoc _ _ _
  · simp only [Bool.xor_false, if_true, Bool.false_eq_true, if_false]
    rw [BitVec.xor_assoc, BitVec.xor_assoc, BitVec.xor_comm poly]
  · exact cancel _ _

theorem shifts_xor (n : Nat) (a b : BitVec w) :
    shifts poly n (a ^^^ b) = shifts poly n a ^^^ shifts poly n b := by
  induction n generalizing a b with
  | zero => rfl
  | succ n ih => rw [shifts, shift_xor, ih, shifts, shifts]

theorem shift_of_low {c : BitVec w} (low : c.msb = false) : shift poly c = c <<< 1 := by
  rw [shift, low, if_neg Bool.false_ne_true]

theorem shifts_of_low (n : Nat) {c : BitVec w} (low : ∀ i < n, c.getMsbD i = false) :
    shifts poly n c = c <<< n := by
  induction n generalizing c with
  | zero => rw [shifts, BitVec.shiftLeft_zero]
  | succ n ih =>
    have next : ∀ i < n, (c <<< 1).getMsbD i = false := by
      intro i small
      rw [BitVec.getMsbD_shiftLeft]
      exact low (i + 1) (by omega)
    have first : c.msb = false := low 0 (by omega)
    rw [shifts, shift_of_low poly first, ih next, ← BitVec.shiftLeft_add, Nat.add_comm]

/-- A polynomial with a constant term. -/
def Constant (poly : BitVec w) : Prop := poly.getLsbD 0 = true

variable {poly}

theorem shift_eq_zero (constant : Constant poly) {c : BitVec w} (h : shift poly c = 0#w) :
    c = 0#w := by
  have low : c.msb = false := by
    cases out : c.msb with
    | false => rfl
    | true =>
      -- the constant term would stay behind
      have bit := congrArg (·.getLsbD 0) h
      have one : poly.getLsbD 0 = true := constant
      simp [shift, out, one] at bit
  apply BitVec.eq_of_getMsbD_eq
  intro i _
  cases i with
  | zero => simpa [BitVec.msb] using low
  | succ i =>
    have bit := congrArg (·.getMsbD i) h
    simpa [shift_of_low poly low] using bit

theorem shifts_injective (constant : Constant poly) (n : Nat) {a b : BitVec w}
    (same : shifts poly n a = shifts poly n b) : a = b := by
  induction n generalizing a b with
  | zero => exact same
  | succ n ih =>
    have step : shift poly a = shift poly b := ih same
    have zero : shift poly (a ^^^ b) = 0#w := by simp [shift_xor, step]
    exact BitVec.xor_eq_zero_iff.mp (shift_eq_zero constant zero)

/-! ### What has been fed -/

theorem getMsbD_top {bs : List Bool} (fits : bs.length ≤ w) (i : Nat) :
    (top bs : BitVec w).getMsbD i = bs.getD i false := by
  induction bs generalizing i with
  | nil => simp [top]
  | cons b bs ih =>
    have wide : 0 < w := Nat.lt_of_lt_of_le (Nat.succ_pos _) fits
    have rest := ih (Nat.le_of_succ_le fits)
    cases i with
    | zero => cases b <;> simp [top, BitVec.getMsbD_ushiftRight, BitVec.getMsbD_intMin, wide]
    | succ i =>
      have head : (if b then BitVec.intMin w else 0#w).getMsbD (i + 1) = false := by
        cases b <;> simp [BitVec.getMsbD_intMin]
      have inside : (decide (i + 1 < w) && bs.getD i false) = bs.getD i false := by
        by_cases near : i < bs.length
        · have : i + 1 < w := by simp at fits; omega
          simp [this]
        · simp [near]
      have moved : (top bs >>> 1 : BitVec w).getMsbD (i + 1) = bs.getD i false := by
        simp [BitVec.getMsbD_ushiftRight, rest] at inside ⊢
        exact inside
      simpa [top, head] using moved

theorem top_injective {bs cs : List Bool} (fits : bs.length ≤ w) (same : bs.length = cs.length)
    (h : (top bs : BitVec w) = top cs) : bs = cs := by
  apply List.ext_getElem same
  intro i inside inside'
  have bit := congrArg (·.getMsbD i) h
  simpa [getMsbD_top fits, getMsbD_top (same ▸ fits), inside, inside'] using bit

theorem run_top {bs : List Bool} (fits : bs.length ≤ w) (c : BitVec w) :
    run poly c bs = shifts poly bs.length (c ^^^ top bs) := by
  induction bs generalizing c with
  | nil => simp [run, shifts, top]
  | cons b bs ih =>
    have room : bs.length < w := fits
    have out : (top bs >>> 1 : BitVec w).msb = false := by
      simp [BitVec.msb, BitVec.getMsbD_ushiftRight]
    have back : (top bs >>> 1 : BitVec w) <<< 1 = top bs := by
      apply BitVec.eq_of_getMsbD_eq
      intro i inside
      have rest := getMsbD_top (Nat.le_of_lt room) (w := w) i
      by_cases last : i + 1 < w
      · simp [BitVec.getMsbD_ushiftRight, last]
      · have beyond : bs.length ≤ i := by omega
        simp [BitVec.getMsbD_ushiftRight, last, rest, beyond]
    have parts : c ^^^ top (b :: bs) = (c ^^^ top [b]) ^^^ (top bs >>> 1) := by
      simp [top, BitVec.xor_assoc]
    calc run poly c (b :: bs)
        = shifts poly bs.length (feed poly c b ^^^ top bs) := ih (Nat.le_of_lt room) _
      _ = shifts poly bs.length (shift poly (c ^^^ top (b :: bs))) := by
        rw [parts, shift_xor, shift_of_low poly out, back]
        rfl

theorem run_injective (constant : Constant poly) (bs : List Bool) {a b : BitVec w}
    (same : run poly a bs = run poly b bs) : a = b := by
  induction bs generalizing a b with
  | nil => exact same
  | cons bit bs ih =>
    have step : feed poly a bit = feed poly b bit := ih same
    exact BitVec.xor_left_inj _ |>.mp (shifts_injective constant 1 step)

/-- A change within one width of the register changes what is left in it. -/
theorem burst (constant : Constant poly) {front d e back : List Bool} (c : BitVec w)
    (fits : d.length ≤ w) (same : d.length = e.length)
    (h : run poly c (front ++ d ++ back) = run poly c (front ++ e ++ back)) : d = e := by
  have whole : run poly (run poly (run poly c front) d) back =
      run poly (run poly (run poly c front) e) back := by simpa only [run_append] using h
  have middle := run_injective constant back whole
  have fits' : e.length ≤ w := same ▸ fits
  rw [run_top fits, run_top fits', same] at middle
  have summed := shifts_injective constant _ middle
  exact top_injective fits same (BitVec.xor_right_inj _ |>.mp summed)

end ShiftRegister

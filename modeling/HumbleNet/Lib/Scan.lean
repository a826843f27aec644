import HumbleNet.Lib.Numerals

/-! `sscanf` for formats of words and numbers. -/
namespace Scan

open Numerals

def word (s : List UInt8) : Option (List UInt8 × List UInt8) :=
  let s := s.dropWhile isSpace
  let w := s.takeWhile fun c => !isSpace c
  if w = [] then none else some (w, s.dropWhile fun c => !isSpace c)

/-- `%s` and `%d`, with what is done to the arguments: it fails where it writes outside. -/
inductive Conversion (σ : Type) where
  | word (assign : List UInt8 → σ → Option σ)
  | number (assign : Int → σ → Option σ)

def sscanf {σ : Type} : List (Conversion σ) → List UInt8 → σ → Option σ
  | [], _, args => some args
  | .word assign :: format, s, args =>
    match word s with
    | none => some args
    | some (w, s) => (assign w args).bind (sscanf format s)
  | .number assign :: format, s, args =>
    match integer s with
    | none => some args
    | some (v, s) => (assign v args).bind (sscanf format s)

def suppress {σ α : Type} (_ : α) (args : σ) : Option σ := some args

inductive Kind where
  | word
  | number

def Kind.suppressed {σ : Type} : Kind → Conversion σ
  | .word => .word suppress
  | .number => .number suppress

def pass : List Kind → List UInt8 → Option (List UInt8)
  | [], s => some s
  | .word :: kinds, s => (word s).bind fun read => pass kinds read.2
  | .number :: kinds, s => (integer s).bind fun read => pass kinds read.2

theorem sscanf_suppressed {σ : Type} (kinds : List Kind) (format : List (Conversion σ))
    (s : List UInt8) (args : σ) : sscanf (kinds.map Kind.suppressed ++ format) s args =
      match pass kinds s with
      | none => some args
      | some s => sscanf format s args := by
  induction kinds generalizing s with
  | nil => rfl
  | cons kind kinds ih =>
    cases kind with
    | word =>
      simp only [List.map_cons, List.cons_append, Kind.suppressed, sscanf, pass]
      cases word s with
      | none => rfl
      | some read => exact ih read.2
    | number =>
      simp only [List.map_cons, List.cons_append, Kind.suppressed, sscanf, pass]
      cases integer s with
      | none => rfl
      | some read => exact ih read.2

theorem word_space {c : UInt8} (space : isSpace c = true) (s : List UInt8) :
    word (c :: s) = word s := by
  rw [word, List.dropWhile_cons_of_pos space]
  rfl

theorem word_append {w : List UInt8} (some : w ≠ []) (solid : ∀ c ∈ w, isSpace c = false)
    (rest : List UInt8) (ends : ∀ c ∈ rest.head?, isSpace c = true) :
    word (w ++ rest) = .some (w, rest) := by
  have all : ∀ c ∈ w, (!isSpace c) = true := fun c listed => by simp [solid c listed]
  have front : (w ++ rest).takeWhile (fun c => !isSpace c) = w := by
    rw [List.takeWhile_append_of_pos all]
    cases rest with
    | nil => simp
    | cons c rest => simp [ends c rfl]
  have back : (w ++ rest).dropWhile (fun c => !isSpace c) = rest := by
    rw [List.dropWhile_append_of_pos all]
    cases rest with
    | nil => simp
    | cons c rest => simp [ends c rfl]
  cases w with
  | nil => exact absurd rfl some
  | cons c w =>
    have solid := solid c List.mem_cons_self
    rw [List.cons_append] at front back
    rw [word, List.cons_append, List.dropWhile_cons_of_neg (by simp [solid])]
    simp [front, back]

theorem pass_space {c : UInt8} (space : isSpace c = true) (kind : Kind) (kinds : List Kind)
    (s : List UInt8) : pass (kind :: kinds) (c :: s) = pass (kind :: kinds) s := by
  cases kind with
  | word => rw [pass, pass, word_space space]
  | number => rw [pass, pass, integer_space space]

theorem pass_word {w : List UInt8} (some : w ≠ []) (solid : ∀ d ∈ w, isSpace d = false)
    {c : UInt8} (space : isSpace c = true) (kinds : List Kind) (rest : List UInt8) :
    pass (.word :: kinds) (w ++ c :: rest) = pass kinds (c :: rest) := by
  rw [pass, word_append some solid _ (by simpa using space), Option.bind_some]

theorem pass_unsigned (n : Nat) {c : UInt8} (ends : isDigit c = false) (kinds : List Kind)
    (rest : List UInt8) : pass (.number :: kinds) (unsigned n ++ c :: rest) =
      pass kinds (c :: rest) := by
  rw [pass, integer_unsigned n _ (by simpa using ends), Option.bind_some]

theorem word_some {s w rest : List UInt8} (read : word s = some (w, rest)) :
    w ≠ [] ∧ (∀ c ∈ w, isSpace c = false) ∧ ∀ c ∈ w, c ∈ s := by
  simp only [word] at read
  split_ifs at read with none
  cases read
  refine ⟨none, fun c listed => by simpa using List.mem_takeWhile_imp listed, fun c listed => ?_⟩
  exact (List.dropWhile_sublist _).subset ((List.takeWhile_sublist _).subset listed)

end Scan

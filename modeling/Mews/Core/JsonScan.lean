import Mathlib.Data.List.Basic

/-!
# What every JSON object looks like to a scanner

A scanner of the bytes of a text follows the nesting and the strings.  Every JSON object
or array leaves it done.  Text that has begun cannot be made a JSON object by an object
that comes after it: the scanner does not begin anew.
-/

namespace Mews

inductive JsonScan where
  | start
  /-- Outside of strings, in one object or array more than `depth`. -/
  | outside (depth : ℕ)
  | inside (depth : ℕ)
  /-- In a string, after a backslash. -/
  | escaped (depth : ℕ)
  | done
  | bad
  deriving DecidableEq

namespace JsonScan

def blanks : List UInt8 := [9, 10, 13, 32]

def openers : List UInt8 := [91, 123]

def closers : List UInt8 := [93, 125]

def quote : UInt8 := 34

def backslash : UInt8 := 92

/-- What stands between strings: separators, numbers and the letters of the literals. -/
def bare : List UInt8 :=
  blanks ++ [44, 58] ++ [43, 45, 46, 48, 49, 50, 51, 52, 53, 54, 55, 56, 57, 69] ++
    [97, 101, 102, 108, 110, 114, 115, 116, 117]

/-- What may follow a backslash. -/
def escapes : List UInt8 := [34, 47, 92, 98, 102, 110, 114, 116, 117]

/-- An object or array ends. -/
def closed : ℕ → JsonScan
  | 0 => done
  | depth + 1 => outside depth

def step : JsonScan → UInt8 → JsonScan
  | start, byte =>
      if byte ∈ blanks then start else if byte ∈ openers then outside 0 else bad
  | outside depth, byte =>
      if byte ∈ openers then outside (depth + 1)
      else if byte ∈ closers then closed depth
      else if byte = quote then inside depth
      else if byte ∈ bare then outside depth
      else bad
  | inside depth, byte =>
      if byte = quote then outside depth
      else if byte = backslash then escaped depth
      else if byte < 32 then bad
      else inside depth
  | escaped depth, byte => if byte ∈ escapes then inside depth else bad
  | done, byte => if byte ∈ blanks then done else bad
  | bad, _ => bad

def run (scan : JsonScan) (text : List UInt8) : JsonScan := text.foldl step scan

/-- The scan of a text that stands in more objects or arrays. -/
def nest (more : ℕ) : JsonScan → JsonScan
  | start => outside more
  | outside depth => outside (depth + more + 1)
  | inside depth => inside (depth + more + 1)
  | escaped depth => escaped (depth + more + 1)
  | done => outside more
  | bad => bad

variable {scan : JsonScan} {text rest : List UInt8}

theorem run_append : scan.run (text ++ rest) = (scan.run text).run rest :=
  List.foldl_append

theorem run_cons {byte : UInt8} : scan.run (byte :: text) = (scan.step byte).run text := rfl

theorem run_bad : bad.run text = bad := by
  induction text with
  | nil => rfl
  | cons byte text ih => exact ih

theorem step_ne_start {byte : UInt8} (hscan : scan ≠ start) : scan.step byte ≠ start := by
  cases scan with
  | start => exact absurd rfl hscan
  | outside depth =>
      rw [step]
      split_ifs
      · exact nofun
      · cases depth <;> exact nofun
      · exact nofun
      · exact nofun
      · exact nofun
  | inside depth =>
      rw [step]
      split_ifs <;> exact nofun
  | escaped depth =>
      rw [step]
      split_ifs <;> exact nofun
  | done =>
      rw [step]
      split_ifs <;> exact nofun
  | bad => exact nofun

theorem run_ne_start (hscan : scan ≠ start) : scan.run text ≠ start := by
  induction text generalizing scan with
  | nil => exact hscan
  | cons byte text ih => exact ih (step_ne_start hscan)

/-- A step in more objects or arrays, unless it fails. -/
theorem step_nest (more : ℕ) {byte : UInt8} (hscan : scan ≠ start)
    (hstep : scan.step byte ≠ bad) : (scan.nest more).step byte = (scan.step byte).nest more := by
  cases scan with
  | start => exact absurd rfl hscan
  | outside depth =>
      rw [step] at hstep
      rw [nest, step, step]
      split_ifs at hstep ⊢
      · rw [nest, Nat.add_right_comm depth 1 more]
      · cases depth with
        | zero => rw [Nat.zero_add, closed, closed, nest]
        | succ depth => rw [Nat.add_right_comm depth 1 more, closed, closed, nest]
      · rfl
      · rfl
      · exact absurd rfl hstep
  | inside depth =>
      rw [step] at hstep
      rw [nest, step, step]
      split_ifs at hstep ⊢
      · rfl
      · rfl
      · exact absurd rfl hstep
      · rfl
  | escaped depth =>
      rw [step] at hstep
      rw [nest, step, step]
      split_ifs at hstep ⊢
      · rfl
      · exact absurd rfl hstep
  | done =>
      have hblank : byte ∈ blanks := by
        by_contra hother
        rw [step, if_neg hother] at hstep
        exact hstep rfl
      rw [nest, step, step, if_pos hblank]
      have hall : blanks.all (fun byte =>
          byte ∉ openers ∧ byte ∉ closers ∧ byte ≠ quote) = true := rfl
      obtain ⟨hopener, hcloser, hquote⟩ :=
        of_decide_eq_true (List.all_eq_true.mp hall byte hblank)
      rw [if_neg hopener, if_neg hcloser, if_neg hquote, if_pos, nest]
      exact List.mem_append_left _ (List.mem_append_left _ (List.mem_append_left _ hblank))
  | bad => exact absurd rfl hstep

theorem run_nest (more : ℕ) (hscan : scan ≠ start) (hrun : scan.run text ≠ bad) :
    (scan.nest more).run text = (scan.run text).nest more := by
  induction text generalizing scan with
  | nil => rfl
  | cons byte text ih =>
      have hstep : scan.step byte ≠ bad := by
        intro hbad
        rw [run_cons, hbad, run_bad] at hrun
        exact hrun rfl
      rw [run_cons, run_cons, step_nest more hscan hstep]
      exact ih (step_ne_start hscan) hrun

/-- An object begins with a brace, a quote and the first letter of a name which no
literal begins with. -/
def Named (text : List UInt8) : Prop :=
  ∃ letter rest, text = 123 :: quote :: letter :: rest ∧ letter ∉ closers ∧ letter ∉ openers ∧
    letter ∉ bare ∧ letter ≠ quote

/-- After text that has begun, an object does not end a JSON text. -/
theorem run_ne_done (hscan : scan ≠ start) (hnamed : Named text) (hdone : start.run text = done) :
    scan.run text ≠ done := by
  obtain ⟨letter, rest, rfl, hcloser, hopener, hbare, hquote⟩ := hnamed
  have hbrace : start.step 123 = outside 0 := by decide
  rw [run_cons, hbrace] at hdone
  cases scan with
  | start => exact absurd rfl hscan
  | outside depth =>
      have hopened : (outside depth).step 123 = (outside 0).nest depth := by
        rw [step, if_pos (by decide), nest, Nat.zero_add]
      have hopen : outside 0 ≠ start := nofun
      rw [run_cons, hopened, run_nest depth hopen (hdone ▸ nofun), hdone]
      exact nofun
  | inside depth =>
      have hclosed : ((inside depth).step 123).step quote = outside depth := by
        rw [step, if_neg (by decide), if_neg (by decide), if_neg (by decide), step, if_pos rfl]
      rw [run_cons, run_cons, hclosed, run_cons, step, if_neg hopener, if_neg hcloser,
        if_neg hquote, if_neg hbare, run_bad]
      exact nofun
  | escaped depth =>
      rw [run_cons, step, if_neg (by decide), run_bad]
      exact nofun
  | done =>
      rw [run_cons, step, if_neg (by decide), run_bad]
      exact nofun
  | bad =>
      rw [run_bad]
      exact nofun

end JsonScan

end Mews

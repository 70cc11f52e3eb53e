/-!
# Truth values

Three-valued logic: a comparison with something missing is neither true nor false.

## Main definitions

- `Truth`: the three values
- `Truth.and`, `Truth.or`, `Truth.not`: the connectives
- `Truth.all`, `Truth.any`: the connectives over lists
-/

namespace Criteria

/-- A truth value. -/
inductive Truth where
  | true
  | false
  | unknown
deriving DecidableEq, Repr, Inhabited

namespace Truth

/-- False if a part is false, otherwise unknown if a part is unknown. -/
def and : Truth → Truth → Truth
  | .false, _ => .false
  | _, .false => .false
  | .true, .true => .true
  | _, _ => .unknown

/-- True if a part is true, otherwise unknown if a part is unknown. -/
def or : Truth → Truth → Truth
  | .true, _ => .true
  | _, .true => .true
  | .false, .false => .false
  | _, _ => .unknown

def not : Truth → Truth
  | .true => .false
  | .false => .true
  | .unknown => .unknown

def ofBool (b : Bool) : Truth :=
  if b then .true else .false

/-- True, and neither false nor unknown. -/
def isTrue : Truth → Bool
  | .true => Bool.true
  | _ => Bool.false

def name : Truth → String
  | .true => "TRUE"
  | .false => "FALSE"
  | .unknown => "UNKNOWN"

/-- The conjunction of many, true of none. -/
def all (ts : List Truth) : Truth :=
  ts.foldl and .true

/-- The disjunction of many, false of none. -/
def any (ts : List Truth) : Truth :=
  ts.foldl or .false

theorem and_comm (a b : Truth) : a.and b = b.and a := by
  cases a <;> cases b <;> rfl

theorem and_assoc (a b c : Truth) : (a.and b).and c = a.and (b.and c) := by
  cases a <;> cases b <;> cases c <;> rfl

theorem or_comm (a b : Truth) : a.or b = b.or a := by
  cases a <;> cases b <;> rfl

theorem or_assoc (a b c : Truth) : (a.or b).or c = a.or (b.or c) := by
  cases a <;> cases b <;> cases c <;> rfl

@[simp] theorem not_not (a : Truth) : a.not.not = a := by
  cases a <;> rfl

theorem not_and (a b : Truth) : (a.and b).not = a.not.or b.not := by
  cases a <;> cases b <;> rfl

theorem not_or (a b : Truth) : (a.or b).not = a.not.and b.not := by
  cases a <;> cases b <;> rfl

@[simp] theorem true_and (a : Truth) : Truth.true.and a = a := by
  cases a <;> rfl

@[simp] theorem and_true (a : Truth) : a.and .true = a := by
  cases a <;> rfl

@[simp] theorem false_and (a : Truth) : Truth.false.and a = .false := by
  cases a <;> rfl

@[simp] theorem false_or (a : Truth) : Truth.false.or a = a := by
  cases a <;> rfl

@[simp] theorem or_false (a : Truth) : a.or .false = a := by
  cases a <;> rfl

@[simp] theorem true_or (a : Truth) : Truth.true.or a = .true := by
  cases a <;> rfl

theorem not_ofBool (b : Bool) : (ofBool b).not = ofBool (!b) := by
  cases b <;> rfl

theorem and_ofBool (a b : Bool) : (ofBool a).and (ofBool b) = ofBool (a && b) := by
  cases a <;> cases b <;> rfl

theorem or_ofBool (a b : Bool) : (ofBool a).or (ofBool b) = ofBool (a || b) := by
  cases a <;> cases b <;> rfl

theorem foldl_and (a : Truth) (ts : List Truth) : ts.foldl and a = a.and (all ts) := by
  induction ts generalizing a with
  | nil => simp [all]
  | cons t rest ih =>
    have hrest : all (t :: rest) = t.and (all rest) := by
      simp only [all, List.foldl_cons, true_and]
      exact ih t
    rw [List.foldl_cons, ih, hrest, and_assoc]

theorem foldl_or (a : Truth) (ts : List Truth) : ts.foldl or a = a.or (any ts) := by
  induction ts generalizing a with
  | nil => simp [any]
  | cons t rest ih =>
    have hrest : any (t :: rest) = t.or (any rest) := by
      simp only [any, List.foldl_cons, false_or]
      exact ih t
    rw [List.foldl_cons, ih, hrest, or_assoc]

@[simp] theorem all_nil : all [] = .true := rfl

@[simp] theorem all_cons (t : Truth) (ts : List Truth) : all (t :: ts) = t.and (all ts) := by
  simp only [all, List.foldl_cons, true_and]
  exact foldl_and t ts

@[simp] theorem any_nil : any [] = .false := rfl

@[simp] theorem any_cons (t : Truth) (ts : List Truth) : any (t :: ts) = t.or (any ts) := by
  simp only [any, List.foldl_cons, false_or]
  exact foldl_or t ts

@[simp] theorem all_append (ts us : List Truth) : all (ts ++ us) = (all ts).and (all us) := by
  rw [all, List.foldl_append, foldl_and]
  rfl

end Truth

end Criteria

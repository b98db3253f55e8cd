import MicroBench.Json.Numbers
import MicroBench.Json.Space

/-! Values of JSON that nobody asked for. They may be nested to any depth: the lists and
objects that are still open are kept on a stack of their own. -/
namespace MicroBench.Json

/-- The rest of a word of which the first letter was read. -/
def readIdent : List Char → List Char → Except Fault (List Char)
  | [], text => .ok text
  | _ :: _, [] => .error (.before .endInValue [])
  | letter :: letters, c :: text =>
    if c = letter then readIdent letters text else .error (.within .expectedIdent (c :: text))

def readColon (text : List Char) : Except Fault (List Char) :=
  match skipSpace text with
  | [] => .error (.before .endInObject [])
  | ':' :: rest => .ok rest
  | rest => .error (.within .expectedColon rest)

/-- A value without parts. -/
def skipScalar : List Char → Except Fault (List Char)
  | [] => .error (.before .endInValue [])
  | '"' :: rest => skipString rest
  | 'n' :: rest => readIdent ['u', 'l', 'l'] rest
  | 't' :: rest => readIdent ['r', 'u', 'e'] rest
  | 'f' :: rest => readIdent ['a', 'l', 's', 'e'] rest
  | c :: rest =>
    if startsNumber c then skipNumber (c :: rest)
    else .error (.within .expectedValue (c :: rest))

def skipKey (text : List Char) : Except Fault (List Char) :=
  match skipSpace text with
  | [] => .error (.before .endInObject [])
  | '"' :: rest =>
    match skipString rest with
    | .error fault => .error fault
    | .ok rest => readColon rest
  | rest => .error (.within .keyNotString rest)

inductive Container where
  | list
  | object
deriving DecidableEq

/-- Whether a value is due, or what follows one. -/
inductive Due where
  | value
  | next
deriving DecidableEq

theorem length_readIdent_le {letters text rest : List Char}
    (h : readIdent letters text = .ok rest) : rest.length ≤ text.length := by
  fun_induction readIdent letters text with
  | case1 => cases h; exact Nat.le_refl _
  | case2 => cases h
  | case3 _ _ _ ih => exact Nat.le_succ_of_le (ih h)
  | case4 => cases h

theorem length_readColon_lt {text rest : List Char} (h : readColon text = .ok rest) :
    rest.length < text.length := by
  unfold readColon at h
  split at h
  · cases h
  · rename_i found
    cases h
    exact length_lt_of_skipSpace found
  · cases h

/-- Every value without parts takes a character at least. -/
theorem length_skipScalar_lt {text rest : List Char} (h : skipScalar text = .ok rest) :
    rest.length < text.length := by
  unfold skipScalar at h
  split at h
  · cases h
  · exact Nat.lt_succ_of_lt (length_skipString h)
  · exact Nat.lt_succ_of_le (length_readIdent_le h)
  · exact Nat.lt_succ_of_le (length_readIdent_le h)
  · exact Nat.lt_succ_of_le (length_readIdent_le h)
  · split at h
    · exact length_skipNumber_lt h
    · cases h

theorem length_skipKey_lt {text rest : List Char} (h : skipKey text = .ok rest) :
    rest.length < text.length := by
  unfold skipKey at h
  split at h
  · cases h
  · rename_i found
    split at h
    · cases h
    · rename_i closed
      have := length_readColon_lt h
      have := length_skipString closed
      have := length_lt_of_skipSpace found
      omega
  · cases h

/-- Skips to after the value that is due, or to after the outermost container that is open. -/
def skip (due : Due) (containers : List Container) (text : List Char) :
    Except Fault (List Char) :=
  match due, containers with
  | .next, [] => .ok text
  | .next, .list :: outer =>
    match _ : skipSpace text with
    | [] => .error (.before .endInList [])
    | ',' :: rest => skip .value (.list :: outer) rest
    | ']' :: rest => skip .next outer rest
    | rest => .error (.within .expectedListCommaOrEnd rest)
  | .next, .object :: outer =>
    match _ : skipSpace text with
    | [] => .error (.before .endInObject [])
    | ',' :: rest =>
      match _ : skipKey rest with
      | .error fault => .error fault
      | .ok after => skip .value (.object :: outer) after
    | '\x7d' :: rest => skip .next outer rest
    | rest => .error (.within .expectedObjectCommaOrEnd rest)
  | .value, outer =>
    match _ : skipSpace text with
    | '[' :: rest =>
      match _ : skipSpace rest with
      | [] => .error (.before .endInList [])
      | ']' :: after => skip .next outer after
      | _ => skip .value (.list :: outer) rest
    | '\x7b' :: rest =>
      match _ : skipSpace rest with
      | [] => .error (.before .endInObject [])
      | '\x7d' :: after => skip .next outer after
      | _ =>
        match _ : skipKey rest with
        | .error fault => .error fault
        | .ok after => skip .value (.object :: outer) after
    | rest =>
      match _ : skipScalar rest with
      | .error fault => .error fault
      | .ok after => skip .next outer after
termination_by text.length
decreasing_by
  · exact length_lt_of_skipSpace ‹_›
  · exact length_lt_of_skipSpace ‹_›
  · exact Nat.lt_trans (length_skipKey_lt ‹_›) (length_lt_of_skipSpace ‹_›)
  · exact length_lt_of_skipSpace ‹_›
  · rename_i found within
    exact Nat.lt_trans (length_lt_of_skipSpace within) (length_lt_of_skipSpace found)
  · exact length_lt_of_skipSpace ‹_›
  · rename_i found within
    exact Nat.lt_trans (length_lt_of_skipSpace within) (length_lt_of_skipSpace found)
  · exact Nat.lt_trans (length_skipKey_lt ‹_›) (length_lt_of_skipSpace ‹_›)
  · rename_i found read
    have := length_skipScalar_lt read
    have := length_skipSpace_le text
    rw [found] at this
    omega

def skipValue (text : List Char) : Except Fault (List Char) := skip .value [] text

/-- Skipping never gives text back. -/
theorem length_skip_le {due : Due} {containers : List Container} {text rest : List Char}
    (h : skip due containers text = .ok rest) : rest.length ≤ text.length := by
  have step {a b : List Char} (le : rest.length ≤ a.length) (lt : a.length < b.length) :
      rest.length ≤ b.length := Nat.le_trans le (Nat.le_of_lt lt)
  fun_induction skip due containers text with
  | case1 => cases h; exact Nat.le_refl _
  | case2 | case5 | case6 | case7 | case10 | case11 | case14 | case16 | case18 => cases h
  | case3 _ _ _ found ih | case4 _ _ _ found ih | case9 _ _ _ found ih =>
    exact step (ih h) (length_lt_of_skipSpace found)
  | case8 _ _ _ found _ key ih =>
    exact step (step (ih h) (length_skipKey_lt key)) (length_lt_of_skipSpace found)
  | case12 _ _ _ found _ closed ih | case15 _ _ _ found _ closed ih =>
    exact step (step (ih h) (length_lt_of_skipSpace closed)) (length_lt_of_skipSpace found)
  | case13 _ _ _ found _ _ ih => exact step (ih h) (length_lt_of_skipSpace found)
  | case17 _ _ _ found _ key _ _ ih =>
    exact step (step (ih h) (length_skipKey_lt key)) (length_lt_of_skipSpace found)
  | case19 text _ _ _ _ read ih =>
    exact Nat.le_trans (step (ih h) (length_skipScalar_lt read)) (length_skipSpace_le text)

theorem length_skipValue_le {text rest : List Char} (h : skipValue text = .ok rest) :
    rest.length ≤ text.length := length_skip_le h

end MicroBench.Json

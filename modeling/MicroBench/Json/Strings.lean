import MicroBench.Json.Fault
import MicroBench.Text.Hex

/-! Strings of JSON, read from after the opening quote to after the closing one. A string
whose text is wanted is decoded, and its surrogates must come in pairs; one that is
skipped is only checked for its form. -/
namespace MicroBench.Json

/-- What was read and the text after it, or what is wrong. -/
abbrev Reading (α : Type) := Except Fault (α × List Char)

namespace Reading

variable {α β : Type}

def mapValue (f : α → β) : Reading α → Reading β
  | .error fault => .error fault
  | .ok (x, rest) => .ok (f x, rest)

/-- Reads `x` where the text is read up to a place without anything found. -/
def giving (x : α) : Except Fault (List Char) → Reading α
  | .error fault => .error fault
  | .ok rest => .ok (x, rest)

theorem mapValue_eq_ok {f : α → β} {reading : Reading α} {y : β} {rest : List Char} :
    mapValue f reading = .ok (y, rest) ↔ ∃ x, reading = .ok (x, rest) ∧ f x = y := by
  rcases reading with _ | ⟨x, r⟩
  · simp [mapValue]
  · constructor
    · intro h
      obtain ⟨rfl, rfl⟩ := Prod.mk.inj (Except.ok.inj h)
      exact ⟨x, rfl, rfl⟩
    · rintro ⟨_, h, rfl⟩
      obtain ⟨rfl, rfl⟩ := Prod.mk.inj (Except.ok.inj h)
      rfl

/-- What is given does not depend on what was read. -/
theorem giving_eq_ok {x y : α} {found : Except Fault (List Char)} {rest : List Char} :
    giving x found = .ok (y, rest) ↔ found = .ok rest ∧ x = y := by
  rcases found with _ | r
  · simp [giving]
  · simp only [giving, Except.ok.injEq, Prod.mk.injEq]
    exact and_comm

end Reading

/-- What is wrong where four hexadecimal digits should stand: four bytes are read all the same, if
there are that many. -/
def hexFault (text : List Char) : Fault :=
  if Text.byteCount text < 4 then ⟨.endInString, 0⟩ else ⟨.invalidEscape, Text.byteCount text - 4⟩

def readHex4 : List Char → Reading Nat
  | a :: b :: c :: d :: rest =>
    match Text.hexValue a, Text.hexValue b, Text.hexValue c, Text.hexValue d with
    | some a, some b, some c, some d => .ok (((a * 16 + b) * 16 + c) * 16 + d, rest)
    | _, _, _, _ => .error (hexFault (a :: b :: c :: d :: rest))
  | text => .error (hexFault text)

/-- The character that a letter after a backslash stands for. -/
def simpleEscape : Char → Option Char
  | '"' => some '"'
  | '\\' => some '\\'
  | '/' => some '/'
  | 'b' => some '\x08'
  | 'f' => some '\x0c'
  | 'n' => some '\n'
  | 'r' => some '\r'
  | 't' => some '\t'
  | _ => none

def isLeading (unit : Nat) : Bool := 0xd800 ≤ unit && unit ≤ 0xdbff

def isTrailing (unit : Nat) : Bool := 0xdc00 ≤ unit && unit ≤ 0xdfff

def pairChar (leading trailing : Nat) : Char :=
  .ofNat ((leading - 0xd800) * 0x400 + (trailing - 0xdc00) + 0x10000)

/-- What follows a leading surrogate: the escape of its trailing one. -/
def readTrailing (leading : Nat) : List Char → Reading Char
  | [] => .error (.before .endInString [])
  | '\\' :: [] => .error (.before .endInString [])
  | '\\' :: 'u' :: rest =>
    match readHex4 rest with
    | .error fault => .error fault
    | .ok (trailing, rest) =>
      if isTrailing trailing then .ok (pairChar leading trailing, rest)
      else .error (.before .loneSurrogate rest)
  | '\\' :: c :: rest => .error (.within .endInSurrogatePair (c :: rest))
  | c :: rest => .error (.within .endInSurrogatePair (c :: rest))

def readEscape : List Char → Reading Char
  | [] => .error (.before .endInString [])
  | 'u' :: rest =>
    match readHex4 rest with
    | .error fault => .error fault
    | .ok (unit, rest) =>
      if isTrailing unit then .error (.before .loneSurrogate rest)
      else if isLeading unit then readTrailing unit rest
      else .ok (.ofNat unit, rest)
  | c :: rest =>
    match simpleEscape c with
    | some d => .ok (d, rest)
    | none => .error (.within .invalidEscape (c :: rest))

/-- What follows a backslash in a skipped string: surrogates are not looked at. -/
def skipEscape : List Char → Except Fault (List Char)
  | [] => .error (.before .endInString [])
  | 'u' :: rest => (readHex4 rest).map (·.2)
  | c :: rest =>
    if (simpleEscape c).isSome then .ok rest else .error (.within .invalidEscape (c :: rest))

theorem length_readHex4 {text rest : List Char} {n : Nat} (h : readHex4 text = .ok (n, rest)) :
    rest.length < text.length := by
  unfold readHex4 at h
  split at h
  · split at h
    · cases h
      simp only [List.length_cons]
      omega
    · cases h
  · cases h

theorem length_readTrailing {text rest : List Char} {unit : Nat} {c : Char}
    (h : readTrailing unit text = .ok (c, rest)) : rest.length < text.length := by
  unfold readTrailing at h
  split at h
  · cases h
  · cases h
  · split at h
    · cases h
    · rename_i read
      have := length_readHex4 read
      split at h
      · obtain ⟨-, rfl⟩ := Prod.mk.inj (Except.ok.inj h)
        simp only [List.length_cons]
        omega
      · cases h
  · cases h
  · cases h

theorem length_readEscape {text rest : List Char} {c : Char}
    (h : readEscape text = .ok (c, rest)) : rest.length < text.length := by
  unfold readEscape at h
  split at h
  · cases h
  · split at h
    · cases h
    · rename_i read
      have := length_readHex4 read
      split at h
      · cases h
      · split at h
        · have := length_readTrailing h
          simp only [List.length_cons]
          omega
        · obtain ⟨-, rfl⟩ := Prod.mk.inj (Except.ok.inj h)
          simp only [List.length_cons]
          omega
  · split at h
    · cases h
      simp
    · cases h

theorem length_skipEscape {text rest : List Char} (h : skipEscape text = .ok rest) :
    rest.length < text.length := by
  unfold skipEscape at h
  split at h
  · cases h
  · rename_i after
    cases read : readHex4 after with
    | error => simp [read, Except.map] at h
    | ok found =>
      obtain ⟨_, behind⟩ := found
      have := length_readHex4 read
      simp only [read, Except.map, Except.ok.injEq] at h
      subst h
      simp only [List.length_cons]
      omega
  · split at h
    · cases h
      simp
    · cases h

/-- The text of a string, the part before `text` being given in reverse. -/
def readString (done : List Char) (text : List Char) : Reading (List Char) :=
  match text with
  | [] => .error (.before .endInString [])
  | '"' :: rest => .ok (done.reverse, rest)
  | '\\' :: rest =>
    match _ : readEscape rest with
    | .error fault => .error fault
    | .ok (c, after) => readString (c :: done) after
  | c :: rest =>
    if c.toNat < 0x20 then .error (.within .controlCharacter (c :: rest))
    else readString (c :: done) rest
termination_by text.length
decreasing_by
  · have := length_readEscape ‹_›
    simp only [List.length_cons]
    omega
  · simp

/-- An escape adds the character that it stands for. -/
theorem readString_backslash (done rest : List Char) :
    readString done ('\\' :: rest) =
      match readEscape rest with
      | .error fault => .error fault
      | .ok (c, after) => readString (c :: done) after := by
  rw [readString]
  split <;> rename_i found <;> rw [found]

def skipString (text : List Char) : Except Fault (List Char) :=
  match text with
  | [] => .error (.before .endInString [])
  | '"' :: rest => .ok rest
  | '\\' :: rest =>
    match _ : skipEscape rest with
    | .error fault => .error fault
    | .ok after => skipString after
  | c :: rest =>
    if c.toNat < 0x20 then .error (.before .controlCharacter (c :: rest))
    else skipString rest
termination_by text.length
decreasing_by
  · have := length_skipEscape ‹_›
    simp only [List.length_cons]
    omega
  · simp

theorem skipString_backslash (rest : List Char) :
    skipString ('\\' :: rest) =
      match skipEscape rest with
      | .error fault => .error fault
      | .ok after => skipString after := by
  rw [skipString]
  split <;> rename_i found <;> rw [found]

/-- The closing quote at least is taken, so that what goes on after a string ends. -/
theorem length_readString {done text found rest : List Char}
    (h : readString done text = .ok (found, rest)) : rest.length < text.length := by
  fun_induction readString done text with
  | case1 => cases h
  | case2 => cases h; simp
  | case3 => simp_all
  | case4 done rest' c after read ih =>
    have := ih h
    have := length_readEscape read
    simp only [List.length_cons]
    omega
  | case5 => simp_all
  | case6 done c rest' _ _ _ ih =>
    have := ih h
    simp only [List.length_cons]
    omega

/-- The closing quote at least is taken. -/
theorem length_skipString {text rest : List Char} (h : skipString text = .ok rest) :
    rest.length < text.length := by
  fun_induction skipString text with
  | case1 => cases h
  | case2 => cases h; simp
  | case3 => simp_all
  | case4 rest' after read ih =>
    have := ih h
    have := length_skipEscape read
    simp only [List.length_cons]
    omega
  | case5 => simp_all
  | case6 c rest' _ _ _ ih =>
    have := ih h
    simp only [List.length_cons]
    omega

end MicroBench.Json

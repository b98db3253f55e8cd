import MicroBench.Json.Skip
import MicroBench.Text.Blank

/-! Reading a record from JSON text, as an object or as a list of its fields in their
order. In an object the keys may come in any order, unknown ones are skipped, and the
allocation figures and the samples may be left out; a list may stop before them. -/
namespace MicroBench.Decoding

open Json

/-- A value of another kind than the one expected. It is read, unless it has parts. -/
def wrongKind (expected : Expected) (text : List Char) : Fault :=
  let found (kind : Found) (rest : List Char) : Fault := .before (.wrongKind kind expected) rest
  let ident (letters : List Char) (kind : Found) (rest : List Char) : Fault :=
    match readIdent letters rest with
    | .error fault => fault
    | .ok rest => found kind rest
  match text with
  | 'n' :: rest => ident ['u', 'l', 'l'] .null rest
  | 't' :: rest => ident ['r', 'u', 'e'] (.boolean true) rest
  | 'f' :: rest => ident ['a', 'l', 's', 'e'] (.boolean false) rest
  | '"' :: rest =>
    match readString [] rest with
    | .error fault => fault
    | .ok (string, rest) => found (.string string) rest
  | '[' :: _ => found .sequence text
  | '\x7b' :: _ => found .map text
  | [] => .before .endInValue []
  | c :: _ =>
    if startsNumber c then
      match readNumber text with
      | .error fault => fault
      | .ok (.natural n, rest) => found (.integer n.toNat) rest
      | .ok (.negative n, rest) => found (.integer (-n)) rest
      | .ok (.real x, rest) => found (.real x) rest
    else .within .expectedValue text

def readDueNumber (expected : Expected) (text : List Char) : Reading Number :=
  match skipSpace text with
  | [] => .error (.before .endInValue [])
  | c :: rest =>
    if startsNumber c then readNumber (c :: rest) else .error (wrongKind expected (c :: rest))

/-- A count: an integer that is a word. -/
def readWord (text : List Char) : Reading UInt64 :=
  match readDueNumber .word text with
  | .error fault => .error fault
  | .ok (.natural n, rest) => .ok (n, rest)
  | .ok (.negative n, rest) => .error (.before (.wrongValue (.integer (-n)) .word) rest)
  | .ok (.real x, rest) => .error (.before (.wrongKind (.real x) .word) rest)

/-- A rate: any number. -/
def readRate (text : List Char) : Reading Binary64 :=
  match readDueNumber .rate text with
  | .error fault => .error fault
  | .ok (.natural n, rest) => .ok (.ofNat n.toNat, rest)
  | .ok (.negative n, rest) => .ok (-.ofNat n, rest)
  | .ok (.real x, rest) => .ok (x, rest)

/-- A number that is due takes a character at least. -/
theorem length_readDueNumber_lt {expected : Expected} {text rest : List Char} {n : Number}
    (h : readDueNumber expected text = .ok (n, rest)) : rest.length < text.length := by
  unfold readDueNumber at h
  split at h
  · cases h
  · rename_i found
    split at h
    · have := length_readNumber_lt h
      have := length_lt_of_skipSpace found
      simp only [List.length_cons] at *
      omega
    · cases h

theorem length_readWord_lt {text rest : List Char} {n : UInt64}
    (h : readWord text = .ok (n, rest)) : rest.length < text.length := by
  unfold readWord at h
  split at h
  · cases h
  · rename_i read
    obtain ⟨-, rfl⟩ := Prod.mk.inj (Except.ok.inj h)
    exact length_readDueNumber_lt read
  · cases h
  · cases h

theorem length_readRate_lt {text rest : List Char} {x : Binary64}
    (h : readRate text = .ok (x, rest)) : rest.length < text.length := by
  unfold readRate at h
  split at h
  · cases h
  all_goals
    rename_i read
    obtain ⟨-, rfl⟩ := Prod.mk.inj (Except.ok.inj h)
    exact length_readDueNumber_lt read

/-- Where the next element of a list begins, if there is one. -/
def nextElement (text : List Char) : Except Fault (Option (List Char)) :=
  match skipSpace text with
  | [] => .error (.before .endInList [])
  | ']' :: _ => .ok none
  | ',' :: rest =>
    match skipSpace rest with
    | [] => .error (.before .endInValue [])
    | ']' :: after => .error (.within .trailingComma (']' :: after))
    | rest => .ok (some rest)
  | rest => .error (.within .expectedListCommaOrEnd rest)

/-- Where the first element of a list begins, if there is one. -/
def firstElement (text : List Char) : Except Fault (Option (List Char)) :=
  match skipSpace text with
  | [] => .error (.before .endInList [])
  | ']' :: _ => .ok none
  | rest => .ok (some rest)

/-- The end of a list of which no more elements are wanted. -/
def closeList (text : List Char) : Except Fault (List Char) :=
  match skipSpace text with
  | [] => .error (.before .endInList [])
  | ']' :: rest => .ok rest
  | ',' :: rest =>
    match skipSpace rest with
    | ']' :: after => .error (.within .trailingComma (']' :: after))
    | rest => .error (.within .trailingCharacters rest)
  | rest => .error (.within .trailingCharacters rest)

theorem length_nextElement_lt {text rest : List Char} (h : nextElement text = .ok (some rest)) :
    rest.length < text.length := by
  unfold nextElement at h
  split at h
  · cases h
  · cases h
  · rename_i after found
    have := length_lt_of_skipSpace found
    have := length_skipSpace_le after
    split at h
    · cases h
    · cases h
    · cases h
      omega
  · cases h

/-- The samples after those already read, which are given in reverse. -/
def moreSamples (done : List UInt64) (text : List Char) : Reading (List UInt64) :=
  match _ : nextElement text with
  | .error fault => .error fault
  | .ok none => .giving done.reverse (closeList text)
  | .ok (some element) =>
    match _ : readWord element with
    | .error fault => .error fault
    | .ok (n, rest) => moreSamples (n :: done) rest
termination_by text.length
decreasing_by exact Nat.lt_trans (length_readWord_lt ‹_›) (length_nextElement_lt ‹_›)

/-- The same without the proofs that the text gets shorter. -/
theorem moreSamples_eq (done : List UInt64) (text : List Char) :
    moreSamples done text =
      match nextElement text with
      | .error fault => .error fault
      | .ok none => .giving done.reverse (closeList text)
      | .ok (some element) =>
        match readWord element with
        | .error fault => .error fault
        | .ok (n, rest) => moreSamples (n :: done) rest := by
  rw [moreSamples]
  split <;> rename_i found <;> rw [found]
  dsimp only
  split <;> rename_i read <;> rw [read]

def readSamples (text : List Char) : Reading (List UInt64) :=
  match skipSpace text with
  | [] => .error (.before .endInValue [])
  | '[' :: rest =>
    match firstElement rest with
    | .error fault => .error fault
    | .ok none => .giving [] (closeList rest)
    | .ok (some element) =>
      match readWord element with
      | .error fault => .error fault
      | .ok (n, rest) => moreSamples [n] rest
  | rest => .error (wrongKind .samples rest)

theorem length_closeList_lt {text rest : List Char} (h : closeList text = .ok rest) :
    rest.length < text.length := by
  unfold closeList at h
  split at h
  · cases h
  · rename_i found
    cases h
    exact length_lt_of_skipSpace found
  · split at h <;> cases h
  · cases h

/-- The samples end with a bracket, which is taken. -/
theorem length_moreSamples_lt {done found : List UInt64} {text rest : List Char}
    (h : moreSamples done text = .ok (found, rest)) : rest.length < text.length := by
  fun_induction moreSamples done text with
  | case1 => cases h
  | case2 => exact length_closeList_lt (Reading.giving_eq_ok.1 h).1
  | case3 => cases h
  | case4 _ _ _ next _ _ read ih =>
    have := ih h
    have := length_readWord_lt read
    have := length_nextElement_lt next
    omega

theorem length_readSamples_lt {found : List UInt64} {text rest : List Char}
    (h : readSamples text = .ok (found, rest)) : rest.length < text.length := by
  unfold readSamples at h
  split at h
  · cases h
  · rename_i after opened
    have := length_lt_of_skipSpace opened
    split at h
    · cases h
    · have := length_closeList_lt (Reading.giving_eq_ok.1 h).1
      omega
    · rename_i element first
      have : element.length ≤ after.length := by
        have := length_skipSpace_le after
        unfold firstElement at first
        split at first <;> cases first
        assumption
      split at h
      · cases h
      · rename_i read
        have := length_readWord_lt read
        have := length_moreSamples_lt h
        omega
  · cases h

structure Draft where
  iterations : Option UInt64
  totalNanos : Option UInt64
  nanosPerOp : Option Binary64
  opsPerSec : Option Binary64
  bytesPerOp : Option UInt64
  allocsPerOp : Option UInt64
  samples : Option (List UInt64)
deriving DecidableEq

namespace Draft

def blank : Draft := ⟨none, none, none, none, none, none, none⟩

def has (draft : Draft) : Field → Bool
  | .iterations => draft.iterations.isSome
  | .totalNanos => draft.totalNanos.isSome
  | .nanosPerOp => draft.nanosPerOp.isSome
  | .opsPerSec => draft.opsPerSec.isSome
  | .bytesPerOp => draft.bytesPerOp.isSome
  | .allocsPerOp => draft.allocsPerOp.isSome
  | .samples => draft.samples.isSome

def fill (draft : Draft) (field : Field) (text : List Char) : Reading Draft :=
  match field with
  | .iterations => (readWord text).mapValue fun n => { draft with iterations := some n }
  | .totalNanos => (readWord text).mapValue fun n => { draft with totalNanos := some n }
  | .nanosPerOp => (readRate text).mapValue fun x => { draft with nanosPerOp := some x }
  | .opsPerSec => (readRate text).mapValue fun x => { draft with opsPerSec := some x }
  | .bytesPerOp => (readWord text).mapValue fun n => { draft with bytesPerOp := some n }
  | .allocsPerOp => (readWord text).mapValue fun n => { draft with allocsPerOp := some n }
  | .samples => (readSamples text).mapValue fun ns => { draft with samples := some ns }

/-- The record, or the first field that it lacks. Allocation figures and samples have defaults. -/
def finish (draft : Draft) : Except Field Record :=
  match draft.iterations, draft.totalNanos, draft.nanosPerOp, draft.opsPerSec with
  | none, _, _, _ => .error .iterations
  | _, none, _, _ => .error .totalNanos
  | _, _, none, _ => .error .nanosPerOp
  | _, _, _, none => .error .opsPerSec
  | some iterations, some totalNanos, some nanosPerOp, some opsPerSec =>
    .ok { iterations, totalNanos, nanosPerOp, opsPerSec,
          bytesPerOp := draft.bytesPerOp.getD 0,
          allocsPerOp := draft.allocsPerOp.getD 0,
          samples := draft.samples.getD [] }

/-- The value of a field takes a character at least, so that reading members ends. -/
theorem length_fill_lt {draft after : Draft} {field : Field} {text rest : List Char}
    (h : draft.fill field text = .ok (after, rest)) : rest.length < text.length := by
  cases field <;> simp only [fill] at h <;> obtain ⟨_, read, _⟩ := Reading.mapValue_eq_ok.1 h
  case nanosPerOp => exact length_readRate_lt read
  case opsPerSec => exact length_readRate_lt read
  case samples => exact length_readSamples_lt read
  all_goals exact length_readWord_lt read

end Draft

/-- The text after the white space and the closing brace, as far as they are there. -/
def afterObject (text : List Char) : List Char :=
  match skipSpace text with
  | '\x7d' :: rest => rest
  | rest => rest

/-- Where the key of the next member of an object begins, after its quote, if there is one. -/
def nextKey (text : List Char) : Except Fault (Option (List Char)) :=
  match skipSpace text with
  | [] => .error (.before .endInObject [])
  | '\x7d' :: _ => .ok none
  | ',' :: rest =>
    match skipSpace rest with
    | [] => .error (.before .endInValue [])
    | '"' :: rest => .ok (some rest)
    | '\x7d' :: after => .error (.within .trailingComma ('\x7d' :: after))
    | rest => .error (.within .keyNotString rest)
  | rest => .error (.within .expectedObjectCommaOrEnd rest)

/-- Where the key of the first member of an object begins, after its quote, if there is one. -/
def firstKey (text : List Char) : Except Fault (Option (List Char)) :=
  match skipSpace text with
  | [] => .error (.before .endInObject [])
  | '\x7d' :: _ => .ok none
  | '"' :: rest => .ok (some rest)
  | rest => .error (.within .keyNotString rest)

/-- One member of the object, from after the quote of its key. -/
def readMember (draft : Draft) (text : List Char) : Reading Draft :=
  match readString [] text with
  | .error fault => .error fault
  | .ok (key, rest) =>
    match Field.ofName? key with
    | none =>
      match readColon rest with
      | .error fault => .error fault
      | .ok rest => .giving draft (skipValue rest)
    | some field =>
      if draft.has field then .error (.before (.duplicateField field) (afterObject rest))
      else
        match readColon rest with
        | .error fault => .error fault
        | .ok rest => draft.fill field rest

theorem length_nextKey_lt {text rest : List Char} (h : nextKey text = .ok (some rest)) :
    rest.length < text.length := by
  unfold nextKey at h
  split at h
  · cases h
  · cases h
  · rename_i found
    have := length_lt_of_skipSpace found
    split at h
    · cases h
    · rename_i opened
      cases h
      have := length_lt_of_skipSpace opened
      omega
    · cases h
    · cases h
  · cases h

/-- A member takes its key at least. -/
theorem length_readMember_lt {draft after : Draft} {text rest : List Char}
    (h : readMember draft text = .ok (after, rest)) : rest.length < text.length := by
  unfold readMember at h
  split at h
  · cases h
  · rename_i read
    have := length_readString read
    split at h
    · split at h
      · cases h
      · rename_i colon
        have := length_readColon_lt colon
        have := length_skipValue_le (Reading.giving_eq_ok.1 h).1
        omega
    · split at h
      · cases h
      · split at h
        · cases h
        · rename_i colon
          have := length_readColon_lt colon
          have := Draft.length_fill_lt h
          omega

/-- The members of an object after the first, up to what closes it. -/
def moreMembers (draft : Draft) (text : List Char) : Reading Draft :=
  match _ : nextKey text with
  | .error fault => .error fault
  | .ok none => .ok (draft, text)
  | .ok (some key) =>
    match _ : readMember draft key with
    | .error fault => .error fault
    | .ok (draft, rest) => moreMembers draft rest
termination_by text.length
decreasing_by exact Nat.lt_trans (length_readMember_lt ‹_›) (length_nextKey_lt ‹_›)

@[inherit_doc moreSamples_eq]
theorem moreMembers_eq (draft : Draft) (text : List Char) :
    moreMembers draft text =
      match nextKey text with
      | .error fault => .error fault
      | .ok none => .ok (draft, text)
      | .ok (some key) =>
        match readMember draft key with
        | .error fault => .error fault
        | .ok (draft, rest) => moreMembers draft rest := by
  rw [moreMembers]
  split <;> rename_i found <;> rw [found]
  dsimp only
  split <;> rename_i read <;> rw [read]

def readMembers (text : List Char) : Reading Draft :=
  match firstKey text with
  | .error fault => .error fault
  | .ok none => .ok (.blank, text)
  | .ok (some key) =>
    match readMember .blank key with
    | .error fault => .error fault
    | .ok (draft, rest) => moreMembers draft rest

/-- A record as an object, from after its brace. -/
def readObject (text : List Char) : Reading Record :=
  match readMembers text with
  | .error fault => .error fault
  | .ok (draft, rest) =>
    match draft.finish with
    | .error field => .error (.before (.missingField field) (afterObject rest))
    | .ok record => .ok (record, afterObject rest)

/-- Fills the fields from the elements of a list, until either runs out; gives the fields that were
not reached too. `element` finds the next element. -/
def fillInOrder (element : List Char → Except Fault (Option (List Char))) (draft : Draft)
    (text : List Char) : List Field → Reading (Draft × List Field)
  | [] => .ok ((draft, []), text)
  | field :: fields =>
    match element text with
    | .error fault => .error fault
    | .ok none => .ok ((draft, field :: fields), text)
    | .ok (some value) =>
      match draft.fill field value with
      | .error fault => .error fault
      | .ok (draft, rest) => fillInOrder nextElement draft rest fields

/-- A record as a list, from after its bracket. -/
def readList (text : List Char) : Reading Record :=
  match fillInOrder firstElement .blank text Field.all with
  | .error fault => .error fault
  | .ok ((draft, unreached), rest) =>
    match closeList rest, draft.finish with
    | .error fault, _ => .error fault
    | .ok rest, .error _ =>
      .error (.before (.tooShort (Field.all.length - unreached.length)) rest)
    | .ok rest, .ok record => .ok (record, rest)

/-- A record and nothing else, white space aside. -/
def read (text : List Char) : Except Fault Record :=
  let found : Reading Record :=
    match skipSpace text with
    | [] => .error (.before .endInValue [])
    | '\x7b' :: rest => readObject rest
    | '[' :: rest => readList rest
    | rest => .error (wrongKind .record rest)
  match found with
  | .error fault => .error fault
  | .ok (record, rest) =>
    match skipSpace rest with
    | [] => .ok record
    | rest => .error (.within .trailingCharacters rest)

end MicroBench.Decoding

/-
Text patterns: a small expression language for recognising a shape in a
line and taking parts of it out.

A pattern is run on a place in a text and answers with the places where
it may end, best first. Alternatives are tried in the order written;
`many` prefers to go on, `fewest` prefers to stop. `find?` takes the
leftmost place where a pattern matches and the best end there, so of two
matches at one place the earlier alternative wins, not the longer one.

The run passes each end it finds to a continuation and takes the first
answer. A repetition goes round only when its body has consumed a
character, so the number of characters left bounds the rounds and every
run ends.
-/
import SourceDigest.Text.Word

namespace SourceDigest

/-- The shape of a piece of text. -/
inductive Pattern where
  /-- Nothing at all. -/
  | nothing
  /-- One character that satisfies a test. -/
  | char (ok : Char → Bool)
  /-- One pattern and then another. -/
  | seq (p q : Pattern)
  /-- One pattern, or else another. -/
  | either (p q : Pattern)
  /-- A pattern any number of times, the most first. -/
  | many (p : Pattern)
  /-- A pattern any number of times, the fewest first. -/
  | fewest (p : Pattern)
  /-- A pattern whose text is kept under a number. -/
  | part (n : Nat) (p : Pattern)
  /-- The start of the text. -/
  | atStart
  /-- The end of the text. -/
  | atEnd
  /-- A place between a word character and none. -/
  | wordEdge

namespace Pattern

-- ================================================================= building

/-- A given text, character by character. -/
def ofText : Text → Pattern
  | [] => nothing
  | [c] => char (· == c)
  | c :: rest => seq (char (· == c)) (ofText rest)

instance : Coe String Pattern := ⟨fun s => ofText s.toList⟩

instance : Append Pattern := ⟨seq⟩

instance : OrElse Pattern := ⟨fun p q => either p (q ())⟩

/-- One of the characters of a string. -/
def oneOf (s : String) : Pattern := char fun c => s.toList.contains c

/-- Any character that a string does not hold. -/
def noneOf (s : String) : Pattern := char fun c => !s.toList.contains c

/-- A pattern that may be missing. -/
def opt (p : Pattern) : Pattern := either p nothing

/-- A pattern at least once, the most first. -/
def many1 (p : Pattern) : Pattern := seq p (many p)

/-- The first of several patterns that matches. -/
def anyOf : List Pattern → Pattern
  | [] => char fun _ => false
  | [p] => p
  | p :: more => either p (anyOf more)

/-- Any one of several words, the earlier preferred. -/
def words (ws : List String) : Pattern := anyOf (ws.map fun w => ofText w.toList)

/-- One blank. -/
def blank : Pattern := char Text.isBlank

/-- Any blanks. -/
def gap : Pattern := many blank

/-- At least one blank. -/
def space : Pattern := many1 blank

/-- One character of a word. -/
def word : Pattern := char Text.isWord

/-- Any character but a line feed. -/
def any : Pattern := char (· != '\n')

-- ================================================================== running

/-- A place in a text on the way through a pattern. -/
structure Place where
  /-- How many characters stand before the place. -/
  passed : Nat
  /-- The character just before the place. -/
  last : Option Char
  /-- What stands after the place. -/
  rest : Text
  /-- The parts kept so far, the latest first. -/
  parts : List (Nat × Text)

namespace Place

/-- The place before the first character. -/
def start (t : Text) : Place := ⟨0, none, t, []⟩

/-- The place after the next character, when it passes a test. -/
def step? (s : Place) (ok : Char → Bool) : Option Place :=
  match s.rest with
  | c :: rest => if ok c then some ⟨s.passed + 1, some c, rest, s.parts⟩ else none
  | [] => none

/-- The text between an earlier place and a later one. -/
def between (s e : Place) : Text := s.rest.take (e.passed - s.passed)

/-- Whether exactly one side of the place is a word character. -/
def isWordEdge (s : Place) : Bool :=
  s.last.any Text.isWord != s.rest.head?.any Text.isWord

end Place

variable {α : Type}

/-- At most `rounds` rounds of a step, as many as possible first. -/
def mostRounds (step : Place → (Place → Option α) → Option α) :
    Nat → Place → (Place → Option α) → Option α
  | 0, s, k => k s
  | rounds + 1, s, k =>
    match step s fun e => if s.passed < e.passed then mostRounds step rounds e k else none with
    | some a => some a
    | none => k s

/-- At most `rounds` rounds of a step, as few as possible first. -/
def fewestRounds (step : Place → (Place → Option α) → Option α) :
    Nat → Place → (Place → Option α) → Option α
  | 0, s, k => k s
  | rounds + 1, s, k =>
    match k s with
    | some a => some a
    | none => step s fun e => if s.passed < e.passed then fewestRounds step rounds e k else none

/-- Passes the ends of a pattern to `k`, best first, until it answers. -/
def run : Pattern → Place → (Place → Option α) → Option α
  | nothing, s, k => k s
  | char ok, s, k =>
    match s.step? ok with
    | some e => k e
    | none => none
  | seq p q, s, k => run p s fun e => run q e k
  | either p q, s, k =>
    match run p s k with
    | some a => some a
    | none => run q s k
  | many p, s, k => mostRounds (fun s k => run p s k) s.rest.length s k
  | fewest p, s, k => fewestRounds (fun s k => run p s k) s.rest.length s k
  | part n p, s, k => run p s fun e => k { e with parts := (n, s.between e) :: e.parts }
  | atStart, s, k => if s.passed = 0 then k s else none
  | atEnd, s, k => if s.rest.isEmpty then k s else none
  | wordEdge, s, k => if s.isWordEdge then k s else none

-- ================================================================== finding

/-- A stretch of text that a pattern matches. -/
structure Match where
  /-- How many characters stand before the stretch. -/
  start : Nat
  /-- How many characters stand before its end. -/
  stop : Nat
  /-- The parts kept, the latest first. -/
  parts : List (Nat × Text)

/-- The text kept under a number. -/
def Match.part? (m : Match) (n : Nat) : Option Text :=
  (m.parts.find? fun kept => kept.1 == n).map Prod.snd

/-- The best end of a pattern from a place on. -/
def endAt? (p : Pattern) (s : Place) : Option Place := run p s some

/-- The leftmost match at a place or after it, and where it ends. -/
def findFrom? (p : Pattern) (passed : Nat) (last : Option Char) : Text → Option (Nat × Place)
  | [] => (endAt? p ⟨passed, last, [], []⟩).map fun e => (passed, e)
  | c :: rest =>
    match endAt? p ⟨passed, last, c :: rest, []⟩ with
    | some e => some (passed, e)
    | none => findFrom? p (passed + 1) (some c) rest

/-- The leftmost match of a pattern in a text. -/
def find? (p : Pattern) (t : Text) : Option Match :=
  (findFrom? p 0 none t).map fun found => ⟨found.1, found.2.passed, found.2.parts⟩

/-- Whether a pattern matches somewhere in a text. -/
def isIn (p : Pattern) (t : Text) : Bool := (find? p t).isSome

/-- The text that the leftmost match keeps under a number. -/
def capture? (p : Pattern) (n : Nat) (t : Text) : Option Text :=
  (find? p t).bind (·.part? n)

/-- At most `count` matches from a place on, none overlapping the one
before; after an empty match the search goes on one character later. -/
def findAllFrom (p : Pattern) : (count : Nat) → Place → List Match
  | 0, _ => []
  | count + 1, s =>
    match findFrom? p s.passed s.last s.rest with
    | none => []
    | some (start, e) =>
      ⟨start, e.passed, e.parts⟩ ::
        if start < e.passed then findAllFrom p count { e with parts := [] }
        else
          match e.rest with
          | [] => []
          | c :: rest => findAllFrom p count ⟨e.passed + 1, some c, rest, []⟩

/-- All matches in a text from left to right, none overlapping another. -/
def findAll (p : Pattern) (t : Text) : List Match :=
  findAllFrom p (t.length + 1) (Place.start t)

end Pattern

end SourceDigest

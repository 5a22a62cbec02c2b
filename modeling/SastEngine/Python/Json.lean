import Mathlib.Algebra.Group.Nat.Defs
import Mathlib.Tactic.Lemma

/-!
# `json.loads`

The scanner of the `json` module, in two layers.  `lexStep` reads one character and puts out the
tokens it completes; `feed` reads one token and keeps the containers that are open on a stack.
Both are folds over their input, so that what a prefix of a text does to the scanner does not
depend on the rest, and the first error of the text is the one that is raised.

A Python string is a list of code points: the escapes of a JSON string can denote a surrogate
that has no partner, which no character is.
-/

namespace Sast

/-- A `str`, as its code points. -/
abbrev Str := List Nat

/-- The code points of a text. -/
def Str.of (text : String) : Str := text.toList.map Char.toNat

/-! ## Values -/

/-- The parts of `(-?(?:0|[1-9][0-9]*))(\.[0-9]+)?([eE][-+]?[0-9]+)?`. -/
structure Numeral where
  negative : Bool
  whole : List Char
  fraction : List Char
  exponent : Option (Bool × List Char)
deriving DecidableEq

/-- What `json.loads` returns.  An object lists its pairs as they stand in the text. -/
inductive Json
  | null
  | bool (b : Bool)
  | int (n : Int)
  | float (numeral : Numeral)
  | nan
  | infinity (negative : Bool)
  | str (s : Str)
  | array (items : List Json)
  | object (pairs : List (Str × Json))

/-- `int(digits)`. -/
def decimal (digits : List Char) : Nat := digits.foldl (fun n c => 10 * n + (c.toNat - 48)) 0

/-- The exponent of the least digit of a numeral. -/
def Numeral.scale (n : Numeral) : Int :=
  let written : Int := match n.exponent with
    | none => 0
    | some (negative, digits) => if negative then -decimal digits else decimal digits
  written - n.fraction.length

/-- `float(text) == 0.0`: the numeral is at most half of the smallest positive float. -/
def Numeral.isZero (n : Numeral) : Bool :=
  let mantissa := decimal (n.whole ++ n.fraction)
  mantissa == 0 || (n.scale < 0 && mantissa * 2 ^ 1075 ≤ 10 ^ n.scale.natAbs)

/-- `bool(value)`. -/
def Json.truthy : Json → Bool
  | .null => false
  | .bool b => b
  | .int n => n != 0
  | .float n => !n.isZero
  | .nan => true
  | .infinity _ => true
  | .str s => !s.isEmpty
  | .array items => !items.isEmpty
  | .object pairs => !pairs.isEmpty

/-- `data.get(key)`: the last pair of a name is the one that stays. -/
def Json.get (pairs : List (Str × Json)) (key : String) : Json :=
  match pairs.reverse.find? fun pair => pair.1 = Str.of key with
  | some pair => pair.2
  | none => .null

/-! ## Tokens -/

/-- The pieces of a text between its white space.  A `word` is a run of characters that belong
to no other token, and `bad` is a string that is not well formed. -/
inductive JsonToken
  | openObject
  | closeObject
  | openArray
  | closeArray
  | colon
  | comma
  | word (cs : List Char)
  | str (s : Str)
  | bad
deriving DecidableEq

/-- Where the scanner stands between two characters. -/
inductive Lex
  | out
  | word (cs : List Char)
  | str (s : Str)
  | escape (s : Str)
  | unicode (s : Str) (digits : List Char)
deriving DecidableEq

/-- `WHITESPACE`. -/
def isJsonSpace (c : Char) : Bool := c == ' ' || c == '\t' || c == '\n' || c == '\r'

/-- The characters that are a token of their own. -/
def punctuation : Char → Option JsonToken
  | '{' => some .openObject
  | '}' => some .closeObject
  | '[' => some .openArray
  | ']' => some .closeArray
  | ':' => some .colon
  | ',' => some .comma
  | _ => none

/-- `BACKSLASH`. -/
def backslash : Char → Option Nat
  | '"' => some 34
  | '\\' => some 92
  | '/' => some 47
  | 'b' => some 8
  | 'f' => some 12
  | 'n' => some 10
  | 'r' => some 13
  | 't' => some 9
  | _ => none

/-- The value of a hexadecimal digit. -/
def hexDigit (c : Char) : Option Nat :=
  if '0' ≤ c ∧ c ≤ '9' then some (c.toNat - 48)
  else if 'a' ≤ c ∧ c ≤ 'f' then some (c.toNat - 87)
  else if 'A' ≤ c ∧ c ≤ 'F' then some (c.toNat - 55)
  else none

/-- `int(digits, 16)`. -/
def hexValue (digits : List Char) : Nat :=
  digits.foldl (fun n c => 16 * n + (hexDigit c).getD 0) 0

/-- A high surrogate and the low one after it are one code point. -/
def joinSurrogates : Str → Str
  | high :: low :: rest =>
      if 0xD800 ≤ high ∧ high ≤ 0xDBFF ∧ 0xDC00 ≤ low ∧ low ≤ 0xDFFF then
        (0x10000 + (high - 0xD800) * 1024 + (low - 0xDC00)) :: joinSurrogates rest
      else high :: joinSurrogates (low :: rest)
  | s => s

/-- Whether a character begins a word, or continues one. -/
def isWordChar (c : Char) : Bool :=
  !isJsonSpace c && c != '"' && (punctuation c).isNone

/-- One character between two tokens. -/
def lexOut (c : Char) : Lex × List JsonToken :=
  if isJsonSpace c then (.out, [])
  else if c = '"' then (.str [], [])
  else match punctuation c with
    | some token => (.out, [token])
    | none => (.word [c], [])

/-- One character. -/
def lexStep : Lex → Char → Lex × List JsonToken
  | .out, c => lexOut c
  | .word cs, c =>
      if isWordChar c then (.word (cs ++ [c]), []) else ((lexOut c).1, .word cs :: (lexOut c).2)
  | .str s, c =>
      if c = '"' then (.out, [.str (joinSurrogates s)])
      else if c = '\\' then (.escape s, [])
      else if c.toNat < 0x20 then (.str s, [.bad])
      else (.str (s ++ [c.toNat]), [])
  | .escape s, c =>
      if c = 'u' then (.unicode s [], [])
      else match backslash c with
        | some code => (.str (s ++ [code]), [])
        | none => (.str s, [.bad])
  | .unicode s digits, c =>
      if (hexDigit c).isNone then (.str s, [.bad])
      else if digits.length = 3 then (.str (s ++ [hexValue (digits ++ [c])]), [])
      else (.unicode s (digits ++ [c]), [])

/-- The end of the text. -/
def lexEnd : Lex → List JsonToken
  | .out => []
  | .word cs => [.word cs]
  | _ => [.bad]

/-- The tokens of the rest of a text. -/
def jsonTokens : Lex → List Char → List JsonToken
  | lex, [] => lexEnd lex
  | lex, c :: cs => (lexStep lex c).2 ++ jsonTokens (lexStep lex c).1 cs

/-! ## Words -/

/-- The limits the interpreter sets, if it sets them: the digits of an integer, and the
containers that are open at once. -/
structure JsonLimits where
  digits : Option Nat
  depth : Option Nat

/-- `JSONDecodeError`, the `ValueError` of an integer with too many digits, and the
`RecursionError` of containers nested too deep. -/
inductive LoadsError
  | decode
  | digits
  | recursion
deriving DecidableEq

/-- Whether a limit that may be absent is passed. -/
def exceeds (limit : Option Nat) (n : Nat) : Bool :=
  match limit with
  | none => false
  | some most => most < n

/-- The longest run of digits a text starts with, and the rest. -/
def digitRun (cs : List Char) : List Char × List Char :=
  (cs.takeWhile Char.isDigit, cs.dropWhile Char.isDigit)

/-- `-?(?:0|[1-9][0-9]*)`, without its sign. -/
def wholePart : List Char → Option (List Char × List Char)
  | '0' :: cs => some (['0'], cs)
  | cs => if (digitRun cs).1.isEmpty then none else some (digitRun cs)

/-- `(\.[0-9]+)?`. -/
def fractionPart : List Char → List Char × List Char
  | '.' :: cs => if (digitRun cs).1.isEmpty then ([], '.' :: cs) else digitRun cs
  | cs => ([], cs)

/-- `[-+]?` of an exponent. -/
def exponentSign : List Char → Bool × List Char
  | '-' :: cs => (true, cs)
  | '+' :: cs => (false, cs)
  | cs => (false, cs)

/-- `([eE][-+]?[0-9]+)?`. -/
def exponentPart : List Char → Option (Bool × List Char) × List Char
  | c :: cs =>
      let (negative, ds) := exponentSign cs
      if (c = 'e' ∨ c = 'E') ∧ ¬ (digitRun ds).1.isEmpty then
        (some (negative, (digitRun ds).1), (digitRun ds).2)
      else (none, c :: cs)
  | [] => (none, [])

/-- `-?` of a number. -/
def numeralSign : List Char → Bool × List Char
  | '-' :: cs => (true, cs)
  | cs => (false, cs)

/-- `NUMBER_RE.match` at the start of a word. -/
def scanNumeral (cs : List Char) : Option (Numeral × List Char) :=
  match wholePart (numeralSign cs).2 with
  | none => none
  | some (whole, afterWhole) =>
      let fraction := fractionPart afterWhole
      let exponent := exponentPart fraction.2
      some (⟨(numeralSign cs).1, whole, fraction.1, exponent.1⟩, exponent.2)

/-- The value of a numeral: an integer unless it has a fraction or an exponent. -/
def Numeral.value (limits : JsonLimits) (n : Numeral) : Except LoadsError Json :=
  if n.fraction.isEmpty ∧ n.exponent.isNone then
    if exceeds limits.digits n.whole.length then .error .digits
    else .ok (.int (if n.negative then -decimal n.whole else decimal n.whole))
  else .ok (.float n)

/-- The names `scan_once` knows. -/
def constants : List (String × Json) :=
  [("null", .null), ("true", .bool true), ("false", .bool false), ("NaN", .nan),
    ("Infinity", .infinity false), ("-Infinity", .infinity true)]

/-- The value at the start of a word, and the rest of the word. -/
def scanOnce (limits : JsonLimits) (cs : List Char) : Except LoadsError (Json × List Char) :=
  match constants.find? fun constant => constant.1.toList.isPrefixOf cs with
  | some (name, value) => .ok (value, cs.drop name.toList.length)
  | none =>
      match scanNumeral cs with
      | none => .error .decode
      | some (n, rest) => do
          let value ← n.value limits
          .ok (value, rest)

/-- The value of a word.  What follows the value in the word belongs to no token. -/
def wordValue (limits : JsonLimits) (cs : List Char) : Except LoadsError Json := do
  let (value, rest) ← scanOnce limits cs
  if rest.isEmpty then .ok value else .error .decode

/-! ## Containers -/

/-- A container around the value that is read next. -/
inductive Container
  | items (done : List Json)
  | member (pairs : List (Str × Json)) (key : Str)

/-- What the scanner expects inside the containers on its stack. -/
inductive Mode
  | value
  | firstItem
  | afterItem (done : List Json)
  | firstKey
  | nextKey (pairs : List (Str × Json))
  | afterKey (pairs : List (Str × Json)) (key : Str)
  | afterMember (pairs : List (Str × Json))
  | done (value : Json)

structure ScanState where
  stack : List Container
  mode : Mode

/-- A value is complete. -/
def ScanState.put (value : Json) : List Container → ScanState
  | [] => ⟨[], .done value⟩
  | .items done :: stack => ⟨stack, .afterItem (done ++ [value])⟩
  | .member pairs key :: stack => ⟨stack, .afterMember (pairs ++ [(key, value)])⟩

/-- A token where a value is expected. -/
def beginValue (limits : JsonLimits) (stack : List Container) : JsonToken → Except LoadsError ScanState
  | .openObject =>
      if exceeds limits.depth (stack.length + 1) then .error .recursion else .ok ⟨stack, .firstKey⟩
  | .openArray =>
      if exceeds limits.depth (stack.length + 1) then .error .recursion else .ok ⟨stack, .firstItem⟩
  | .str s => .ok (.put (.str s) stack)
  | .word cs => do
      let value ← wordValue limits cs
      .ok (.put value stack)
  | _ => .error .decode

/-- One token. -/
def feed (limits : JsonLimits) (state : ScanState) (token : JsonToken) :
    Except LoadsError ScanState :=
  match state.mode, token with
  | .value, token => beginValue limits state.stack token
  | .firstItem, .closeArray => .ok (.put (.array []) state.stack)
  | .firstItem, token => beginValue limits (.items [] :: state.stack) token
  | .afterItem done, .comma => .ok ⟨.items done :: state.stack, .value⟩
  | .afterItem done, .closeArray => .ok (.put (.array done) state.stack)
  | .firstKey, .closeObject => .ok (.put (.object []) state.stack)
  | .firstKey, .str key => .ok ⟨state.stack, .afterKey [] key⟩
  | .nextKey pairs, .str key => .ok ⟨state.stack, .afterKey pairs key⟩
  | .afterKey pairs key, .colon => .ok ⟨.member pairs key :: state.stack, .value⟩
  | .afterMember pairs, .comma => .ok ⟨state.stack, .nextKey pairs⟩
  | .afterMember pairs, .closeObject => .ok (.put (.object pairs) state.stack)
  | _, _ => .error .decode

/-- The scanner before a text. -/
def ScanState.start : ScanState := ⟨[], .value⟩

/-- `json.loads(text)`. -/
def loads (limits : JsonLimits) (text : List Char) : Except LoadsError Json := do
  let state ← (jsonTokens .out text).foldlM (feed limits) .start
  match state.mode with
  | .done value => .ok value
  | _ => .error .decode

end Sast

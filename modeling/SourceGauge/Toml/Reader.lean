import SourceGauge.Number.Numeral
import SourceGauge.Text.Position
import SourceGauge.Toml.Table

/-!
# Settings documents

Reading of TOML 1.0. A document is a sequence of lines: blanks, comments, key-value pairs and
headers of tables and of lists of tables. A fault says what was wrong and where; a whole
number written in decimal with more than 4300 digits is refused on its own ground, and so are
lists and inline tables that are nested too deep: a list takes up two units of the room that a
value has for its parts, an inline table three.
-/

namespace SourceGauge.Toml

open Text

/-- What is wrong with a document. -/
inductive Reason
  | invalidStatement
  | expectedLineEnd
  | invalidKey
  | expectedEquals
  | invalidValue
  | invalidMoment
  | unclosedList
  | unclosedTable
  | unclosedHeader
  | unterminatedText
  | illegalCharacter
  | badEscape
  | badCodePoint
  | repeatedKey
  | declaredTwice
  | closedTable
  | occupied
  deriving DecidableEq, Repr

/-- The wording of a reason. -/
def Reason.wording : Reason → String
  | .invalidStatement => "Invalid statement"
  | .expectedLineEnd => "Expected newline or end of document after a statement"
  | .invalidKey => "Invalid initial character for a key part"
  | .expectedEquals => "Expected \x27=\x27 after a key in a key/value pair"
  | .invalidValue => "Invalid value"
  | .invalidMoment => "Invalid date or datetime"
  | .unclosedList => "Unclosed array"
  | .unclosedTable => "Unclosed inline table"
  | .unclosedHeader => "Expected \x27]\x27 at the end of a table declaration"
  | .unterminatedText => "Unterminated string"
  | .illegalCharacter => "Illegal character"
  | .badEscape => "Unescaped \x27\\\x27 in a string"
  | .badCodePoint => "Escaped character is not a Unicode scalar value"
  | .repeatedKey => "Duplicate inline table key"
  | .declaredTwice => "Cannot declare a table twice"
  | .closedTable => "Cannot mutate immutable namespace"
  | .occupied => "Cannot overwrite a value"

/-- Why reading stops: a fault where so many characters are left, too many digits, or lists and
tables nested too deep. -/
inductive Stop
  | malformed (reason : Reason) (left : Nat)
  | tooManyDigits (count : Nat)
  | tooDeep
  deriving DecidableEq, Repr

/-- The fault of a malformed document, at the start of what is left. -/
def malformed {α : Type} (reason : Reason) (rest : List Char) : Except Stop α :=
  .error (.malformed reason rest.length)

/-- Whether a character is a blank within a line. -/
def isSpace (c : Char) : Bool := c == ' ' || c == '\t'

/-- Skip the blanks of a line. -/
def skipSpace (cs : List Char) : List Char := cs.dropWhile isSpace

/-- Whether a character may not stand in a comment or in a text of one line. -/
def isControl (c : Char) : Bool := (c.toNat < 32 && c != '\t') || c.toNat == 127

/-- Whether a character may not stand in a text of several lines. -/
def isControlOfLines (c : Char) : Bool := isControl c && c != '\n'

/-- Whether a character may stand in a key without quotes. -/
def isBareKey (c : Char) : Bool := c.isAlphanum || c == '-' || c == '_'

/-- Skip a comment up to the end of its line. -/
def skipComment : List Char → Except Stop (List Char)
  | '#' :: rest =>
    if (rest.takeWhile (· != '\n')).any isControl then malformed .illegalCharacter rest
    else .ok (rest.dropWhile (· != '\n'))
  | rest => .ok rest

/-- Skip blanks, line ends and comments inside a list. -/
def skipBetweenItems : (fuel : Nat) → List Char → Except Stop (List Char)
  | 0, cs => .ok cs
  | fuel + 1, cs => do
    let rest ← skipComment (cs.dropWhile fun c => isSpace c || c == '\n')
    if rest.length == cs.length then return rest else skipBetweenItems fuel rest

/-- The character that a one-letter escape stands for. -/
def escaped? : Char → Option Char
  | 'b' => some '\x08'
  | 't' => some '\t'
  | 'n' => some '\n'
  | 'f' => some '\x0c'
  | 'r' => some '\r'
  | '"' => some '"'
  | '\\' => some '\\'
  | _ => none

/-- Read the digits of a numbered escape. -/
def readCodePoint (width : Nat) (cs : List Char) : Except Stop (List Char × List Char) :=
  let digits := cs.take width
  match hexNumber? digits with
  | some code =>
    if digits.length < width then malformed .badEscape cs
    else if code < 0xD800 || (0xDFFF < code && code < 0x110000) then
      .ok ([Char.ofNat code], cs.drop width)
    else malformed .badCodePoint cs
  | none => malformed .badEscape cs

/-- Read an escape after its backslash. In a text of several lines a backslash before the end of
a line skips it and the blanks and line ends after it. -/
def readEscape (lines : Bool) (cs : List Char) : Except Stop (List Char × List Char) :=
  match cs with
  | [] => malformed .badEscape cs
  | 'u' :: rest => readCodePoint 4 rest
  | 'U' :: rest => readCodePoint 8 rest
  | c :: rest =>
    if lines && (isSpace c || c == '\n') then
      match skipSpace cs with
      | [] => .ok ([], [])
      | '\n' :: after => .ok ([], after.dropWhile fun c => isSpace c || c == '\n')
      | after => malformed .badEscape after
    else match escaped? c with
      | some value => .ok ([value], rest)
      | none => malformed .badEscape rest

/-- Read the characters of a text in double quotes and its closing quotes. -/
def readBasic (lines : Bool) : (fuel : Nat) → List Char → Except Stop (List Char × List Char)
  | 0, cs => malformed .unterminatedText cs
  | _, [] => malformed .unterminatedText []
  | fuel + 1, '"' :: rest =>
    if !lines then .ok ([], rest)
    else match rest with
      | '"' :: '"' :: after => .ok ([], after)
      | _ => do
        let (chars, after) ← readBasic lines fuel rest
        return ('"' :: chars, after)
  | fuel + 1, '\\' :: rest => do
    let (first, afterEscape) ← readEscape lines rest
    let (chars, after) ← readBasic lines fuel afterEscape
    return (first ++ chars, after)
  | fuel + 1, c :: rest =>
    if (if lines then isControlOfLines c else isControl c) then
      malformed .illegalCharacter (c :: rest)
    else do
      let (chars, after) ← readBasic lines fuel rest
      return (c :: chars, after)

/-- Read the characters of a text in single quotes, up to `closing`. -/
def readLiteral (forbidden : Char → Bool) (closing : List Char) :
    List Char → Except Stop (List Char × List Char)
  | [] => malformed .unterminatedText []
  | c :: rest =>
    if closing.isPrefixOf (c :: rest) then .ok ([], (c :: rest).drop closing.length)
    else if forbidden c then malformed .illegalCharacter (c :: rest)
    else do
      let (chars, after) ← readLiteral forbidden closing rest
      return (c :: chars, after)

/-- Drop the line end that follows the opening quotes of a text of several lines. -/
def dropFirstLineEnd : List Char → List Char
  | '\n' :: rest => rest
  | rest => rest

/-- Up to two more quotes directly after the closing ones belong to the text. -/
def takeExtraQuotes (quote : Char) : List Char → List Char × List Char
  | a :: b :: rest =>
    if a == quote then (if b == quote then ([a, b], rest) else ([a], b :: rest))
    else ([], a :: b :: rest)
  | [a] => if a == quote then ([a], []) else ([], [a])
  | [] => ([], [])

/-- Read a text of one line in double quotes, after the opening quote. -/
def readLine (cs : List Char) : Except Stop (Text × List Char) := do
  let (chars, rest) ← readBasic false (cs.length + 1) cs
  return (.ofChars chars, rest)

/-- Read a text of one line in single quotes, after the opening quote. -/
def readLiteralLine (cs : List Char) : Except Stop (Text × List Char) := do
  let (chars, rest) ← readLiteral isControl ['\x27'] cs
  return (.ofChars chars, rest)

/-- Read a text of several lines, after its three opening quotes. -/
def readLines (quote : Char) (cs : List Char) : Except Stop (Text × List Char) := do
  let body := dropFirstLineEnd cs
  let (chars, rest) ←
    if quote == '"' then readBasic true (body.length + 1) body
    else readLiteral isControlOfLines [quote, quote, quote] body
  let (extra, after) := takeExtraQuotes quote rest
  return (.ofChars (chars ++ extra), after)

/-- Read one part of a key. -/
def readKeyPart (cs : List Char) : Except Stop (Text × List Char) :=
  match cs with
  | '"' :: rest => readLine rest
  | '\x27' :: rest => readLiteralLine rest
  | _ =>
    match cs.takeWhile isBareKey with
    | [] => malformed .invalidKey cs
    | part => .ok (.ofChars part, cs.dropWhile isBareKey)

/-- Read a dotted key and the blanks after it. -/
def readKey : (fuel : Nat) → List Char → Except Stop (Key × List Char)
  | 0, cs => malformed .invalidKey cs
  | fuel + 1, cs => do
    let (part, rest) ← readKeyPart cs
    match skipSpace rest with
    | '.' :: more => do
      let (parts, after) ← readKey fuel (skipSpace more)
      return (part :: parts, after)
    | after => return ([part], after)

/-- Take exactly so many digits. -/
def takeFixed (count : Nat) (cs : List Char) : Option (Nat × List Char) :=
  let digits := cs.take count
  if digits.length == count && digits.all Char.isDigit then
    some (Numeral.ofDigits digits, cs.drop count)
  else none

/-- Take two digits that denote a number in a range. -/
def takePair (low high : Nat) (cs : List Char) : Option (Nat × List Char) := do
  let (n, rest) ← takeFixed 2 cs
  if low ≤ n && n ≤ high then some (n, rest) else none

/-- Take a given character. -/
def takeChar (c : Char) : List Char → Option (List Char)
  | first :: rest => if first == c then some rest else none
  | [] => none

/-- Take the fraction of a second, if a digit follows the point; six digits of it count. -/
def takeMicros : List Char → Nat × List Char
  | '.' :: rest =>
    let digits := rest.takeWhile Char.isDigit
    if digits.isEmpty then (0, '.' :: rest)
    else
      let kept := digits.take 6
      (Numeral.ofDigits kept * Nat.pow 10 (6 - kept.length), rest.dropWhile Char.isDigit)
  | rest => (0, rest)

/-- Take a time of day. -/
def takeTime (cs : List Char) : Option (TimeOfDay × List Char) := do
  let (hour, rest) ← takePair 0 23 cs
  let (minute, rest) ← takePair 0 59 (← takeChar ':' rest)
  let (second, rest) ← takePair 0 59 (← takeChar ':' rest)
  let (micro, rest) := takeMicros rest
  return (⟨hour, minute, second, micro⟩, rest)

/-- Take an offset from UTC in minutes. -/
def takeOffset (cs : List Char) : Option Int × List Char :=
  let signed := fun (sign : Int) (digits : List Char) => do
    let (hour, rest) ← takePair 0 23 digits
    let (minute, rest) ← takePair 0 59 (← takeChar ':' rest)
    return (some (sign * (hour * 60 + minute : Nat)), rest)
  match cs with
  | 'Z' :: rest => (some 0, rest)
  | 'z' :: rest => (some 0, rest)
  | '+' :: rest => (signed 1 rest).getD (none, cs)
  | '-' :: rest => (signed (-1) rest).getD (none, cs)
  | _ => (none, cs)

/-- Take a date. -/
def takeDate (cs : List Char) : Option (Date × List Char) := do
  let (year, rest) ← takeFixed 4 cs
  let (month, rest) ← takePair 1 12 (← takeChar '-' rest)
  let (day, rest) ← takePair 1 31 (← takeChar '-' rest)
  return (⟨year, month, day⟩, rest)

/-- Take a date, a date and a time, or a time. -/
def takeMoment (cs : List Char) : Option (Moment × List Char) :=
  match takeDate cs with
  | some (date, rest) =>
    let timed := match rest with
      | mark :: body => if mark == 'T' || mark == 't' || mark == ' ' then takeTime body else none
      | [] => none
    match timed with
    | some (time, afterTime) =>
      let (offset, after) := takeOffset afterTime
      some (.dateTime date time offset, after)
    | none => some (.date date, rest)
  | none => (takeTime cs).map fun (time, rest) => (.time time, rest)

/-- Whether a moment is one of the calendar. -/
def momentIsValid : Moment → Bool
  | .date date => date.isValid
  | .dateTime date .. => date.isValid
  | .time _ => true

/-- Take digits with single underscores between them: after the first digit, each further digit
may follow an underscore. -/
def takeGrouped (isDigit : Char → Bool) : List Char → List Char × List Char
  | '_' :: d :: rest =>
    if isDigit d then
      let (more, after) := takeGrouped isDigit rest
      ('_' :: d :: more, after)
    else ([], '_' :: d :: rest)
  | d :: rest =>
    if isDigit d then
      let (more, after) := takeGrouped isDigit rest
      (d :: more, after)
    else ([], d :: rest)
  | [] => ([], [])

/-- Take digits that start with a digit. -/
def takeNumber (isDigit : Char → Bool) : List Char → List Char × List Char
  | d :: rest => if isDigit d then takeGrouped isDigit (d :: rest) else ([], d :: rest)
  | [] => ([], [])

/-- The number that digits in a base denote. -/
def ofDigitsIn (base : Nat) (digits : List Char) : Nat :=
  digits.foldl (fun n c => match hexValue? c with
    | some d => n * base + d
    | none => n) 0

/-- The letters of the bases other than ten. -/
def baseOf? : Char → Option (Nat × (Char → Bool))
  | 'x' => some (16, fun c => (hexValue? c).isSome)
  | 'o' => some (8, fun c => '0' ≤ c && c ≤ '7')
  | 'b' => some (2, fun c => c == '0' || c == '1')
  | _ => none

/-- Take a whole number with a base letter. -/
def takeBased : List Char → Option (Int × List Char)
  | '0' :: letter :: rest => do
    let (base, isDigit) ← baseOf? letter
    match takeNumber isDigit rest with
    | ([], _) => none
    | (digits, after) => some ((ofDigitsIn base digits : Nat), after)
  | _ => none

/-- Take the fraction of a number with its point. -/
def takeFraction : List Char → List Char × List Char
  | '.' :: rest =>
    match takeNumber Char.isDigit rest with
    | ([], _) => ([], '.' :: rest)
    | (digits, after) => ('.' :: digits, after)
  | rest => ([], rest)

/-- Take the exponent of a number with its mark and sign. -/
def takeExponent : List Char → List Char × List Char
  | [] => ([], [])
  | mark :: rest =>
    if mark == 'e' || mark == 'E' then
      let (sign, body) := match rest with
        | '-' :: body => (['-'], body)
        | '+' :: body => (['+'], body)
        | body => ([], body)
      match takeNumber Char.isDigit body with
      | ([], _) => ([], mark :: rest)
      | (digits, after) => (mark :: (sign ++ digits), after)
    else ([], mark :: rest)

/-- Read a number in decimal. -/
def readDecimal (start : List Char) : Except Stop (Number × List Char) :=
  let (sign, body) := match start with
    | '-' :: rest => (['-'], rest)
    | '+' :: rest => (['+'], rest)
    | rest => ([], rest)
  let (whole, afterWhole) := match body with
    | '0' :: rest => (['0'], rest)
    | rest => takeNumber Char.isDigit rest
  if whole.isEmpty then malformed .invalidValue start
  else
    let (fraction, afterFraction) := takeFraction afterWhole
    let (exponent, rest) := takeExponent afterFraction
    if fraction.isEmpty && exponent.isEmpty then
      match Numeral.readInt (sign ++ whole) with
      | .ok n => .ok (.int n, rest)
      | .error (.tooManyDigits count) => .error (.tooManyDigits count)
      | .error .malformed => malformed .invalidValue start
    else
      match Numeral.readReal (sign ++ whole ++ fraction ++ exponent) with
      | some x => .ok (.real x, rest)
      | none => malformed .invalidValue start

/-- The words that stand for a value. -/
def words : List (String × Value) :=
  [("true", .number (.flag true)), ("false", .number (.flag false))]

/-- The words that stand for a real; they are tried after all other values. -/
def realWords : List (String × Value) :=
  [("inf", .number (.real (.infinite false))), ("nan", .number (.real .nan)),
    ("-inf", .number (.real (.infinite true))), ("+inf", .number (.real (.infinite false))),
    ("-nan", .number (.real .nan)), ("+nan", .number (.real .nan))]

/-- Read one of some words. -/
def readWord? (choices : List (String × Value)) (cs : List Char) :
    Option (Value × List Char) :=
  choices.findSome? fun (word, value) =>
    (afterWord? word.toList cs).map fun rest => (value, rest)

/-- Read a value that is neither a text, a list nor a table. -/
def readScalar (cs : List Char) : Except Stop (Value × List Char) :=
  match readWord? words cs with
  | some found => .ok found
  | none =>
    match takeMoment cs with
    | some (moment, rest) =>
      if momentIsValid moment then .ok (.moment moment, rest) else malformed .invalidMoment cs
    | none =>
      match takeBased cs with
      | some (n, rest) => .ok (.number (.int n), rest)
      | none =>
        match readDecimal cs with
        | .ok (n, rest) => .ok (.number n, rest)
        | .error (.malformed reason left) =>
          match readWord? realWords cs with
          | some found => .ok found
          | none => .error (.malformed reason left)
        | .error stop => .error stop

/-- Whether a value was written as a list or an inline table. -/
def isClosed : Value → Bool
  | .list _ => true
  | .table _ => true
  | _ => false

/-- The room that the value of a pair has for its parts. -/
def pairRoom : Nat := 988

/-- The room that a list or an empty table needs. -/
def leastRoom : Nat := 4

/-- The room that a table with pairs needs. -/
def leastMemberRoom : Nat := 6

mutual

/-- Read a value. -/
def readValue : (fuel room : Nat) → List Char → Except Stop (Value × List Char)
  | 0, _, cs => malformed .invalidValue cs
  | fuel + 1, room, cs =>
    match cs with
    | '"' :: '"' :: '"' :: rest => do
      let (s, after) ← readLines '"' rest
      return (.text s, after)
    | '"' :: rest => do
      let (s, after) ← readLine rest
      return (.text s, after)
    | '\x27' :: '\x27' :: '\x27' :: rest => do
      let (s, after) ← readLines '\x27' rest
      return (.text s, after)
    | '\x27' :: rest => do
      let (s, after) ← readLiteralLine rest
      return (.text s, after)
    | '[' :: rest =>
      if room < leastRoom then .error .tooDeep
      else do
        match ← skipBetweenItems (rest.length + 1) rest with
        | ']' :: after => return (.list [], after)
        | inside => do
          let (items, after) ← readItems fuel (room - 2) inside
          return (.list items, after)
    | '{' :: rest =>
      if room < leastRoom then .error .tooDeep
      else match skipSpace rest with
        | '}' :: after => .ok (.table [], after)
        | inside =>
          if room < leastMemberRoom then .error .tooDeep
          else do
            let (entries, after) ← readMembers fuel (room - 3) [] .none inside
            return (.table entries, after)
    | _ => readScalar cs

/-- Read the items of a list and its closing bracket; a comma may stand before it. -/
def readItems : (fuel room : Nat) → List Char → Except Stop (List Value × List Char)
  | 0, _, cs => malformed .unclosedList cs
  | fuel + 1, room, cs => do
    let (item, afterItem) ← readValue fuel room cs
    match ← skipBetweenItems (afterItem.length + 1) afterItem with
    | ']' :: rest => return ([item], rest)
    | ',' :: rest => do
      match ← skipBetweenItems (rest.length + 1) rest with
      | ']' :: after => return ([item], after)
      | inside => do
        let (items, after) ← readItems fuel room inside
        return (item :: items, after)
    | rest => malformed .unclosedList rest

/-- Read the pairs of an inline table and its closing brace. -/
def readMembers : (fuel room : Nat) → Entries → Marks → List Char →
    Except Stop (Entries × List Char)
  | 0, _, _, _, cs => malformed .unclosedTable cs
  | fuel + 1, room, entries, marks, cs => do
    let (key, afterKey) ← readKey (cs.length + 1) cs
    match afterKey with
    | '=' :: afterEquals => do
      let (value, afterValue) ← readValue fuel room (skipSpace afterEquals)
      if marks.has key .closed then malformed .closedTable afterValue
      else
        match modifyAt false (addNew (key.getLast?.getD "") value) key.dropLast entries with
        | none => malformed .repeatedKey afterValue
        | some more =>
          match skipSpace afterValue with
          | '}' :: rest => return (more, rest)
          | ',' :: rest =>
            readMembers fuel room more (if isClosed value then marks.add key .closed else marks)
              (skipSpace rest)
          | rest => malformed .unclosedTable rest
    | rest => malformed .expectedEquals rest

end

/-- A document as far as it has been read: its entries, its marks, and the last header. -/
structure Draft where
  entries : Entries
  marks : Marks
  header : Key

/-- Add a key-value pair below the last header. -/
def Draft.addPair (draft : Draft) (key : Key) (value : Value) : Except Reason Draft :=
  let passed := (List.range key.length).drop 1 |>.map fun n => draft.header ++ key.take n
  let parent := draft.header ++ key.dropLast
  if passed.any fun k => draft.marks.has k .declared then .error .declaredTwice
  else if draft.marks.has parent .closed then .error .closedTable
  else
    let marks := passed.foldl (fun marks k => marks.addLater k .declared) draft.marks
    match modifyAt true (addNew (key.getLast?.getD "") value) parent draft.entries with
    | none => .error .occupied
    | some entries => .ok
      { draft with
        entries
        marks := if isClosed value then marks.add (draft.header ++ key) .closed else marks }

/-- Open a table by its header. -/
def Draft.openTable (draft : Draft) (key : Key) : Except Reason Draft :=
  if draft.marks.has key .declared || draft.marks.has key .closed then .error .declaredTwice
  else match modifyAt true some key draft.entries with
    | none => .error .occupied
    | some entries => .ok ⟨entries, draft.marks.add key .declared, key⟩

/-- Open the next table of a list by its header. -/
def Draft.openItem (draft : Draft) (key : Key) : Except Reason Draft :=
  if draft.marks.has key .closed then .error .closedTable
  else match modifyAt true (appendTable (key.getLast?.getD "")) key.dropLast draft.entries with
    | none => .error .occupied
    | some entries => .ok ⟨entries, (draft.marks.forget key).add key .declared, key⟩

/-- The result of a change to a draft, or its fault at a place. -/
def atPlace {α : Type} (rest : List Char) : Except Reason α → Except Stop α
  | .ok value => .ok value
  | .error reason => malformed reason rest

/-- Read a key-value pair or a header; nothing else but a comment may start a line. -/
def readStatement (draft : Draft) (cs : List Char) : Except Stop (Draft × List Char) :=
  match cs with
  | '[' :: '[' :: rest => do
    let (key, after) ← readKey (rest.length + 1) (skipSpace rest)
    let opened ← atPlace after ({ draft with marks := draft.marks.settle }.openItem key)
    match after with
    | ']' :: ']' :: last => return (opened, last)
    | _ => malformed .unclosedHeader after
  | '[' :: rest => do
    let (key, after) ← readKey (rest.length + 1) (skipSpace rest)
    let opened ← atPlace after ({ draft with marks := draft.marks.settle }.openTable key)
    match after with
    | ']' :: last => return (opened, last)
    | _ => malformed .unclosedHeader after
  | '#' :: _ => .ok (draft, cs)
  | c :: _ =>
    if isBareKey c || c == '"' || c == '\x27' then do
      let (key, afterKey) ← readKey (cs.length + 1) cs
      match afterKey with
      | '=' :: afterEquals => do
        let (value, after) ← readValue (2 * cs.length + 2) pairRoom (skipSpace afterEquals)
        return (← atPlace after (draft.addPair key value), after)
      | rest => malformed .expectedEquals rest
    else malformed .invalidStatement cs
  | [] => .ok (draft, [])

/-- Read the lines of a document. -/
def readStatements : (fuel : Nat) → Draft → List Char → Except Stop Entries
  | 0, draft, _ => .ok draft.entries
  | fuel + 1, draft, cs =>
    match skipSpace cs with
    | [] => .ok draft.entries
    | '\n' :: rest => readStatements fuel draft rest
    | line => do
      let (next, afterStatement) ← readStatement draft line
      match ← skipComment (skipSpace afterStatement) with
      | [] => return next.entries
      | '\n' :: rest => readStatements fuel next rest
      | rest => malformed .expectedLineEnd rest

/-- A malformed document: what is wrong with it, and where. -/
structure Fault where
  reason : Reason
  position : Position
  deriving DecidableEq, Repr

/-- The wording of a fault. -/
def Fault.message (fault : Fault) : String :=
  fault.reason.wording ++ " (at line " ++ toString fault.position.line ++ ", column " ++
    toString fault.position.column ++ ")"

/-- Why a text cannot be used as a document. -/
inductive Refusal
  | fault (fault : Fault)
  | tooManyDigits (count : Nat)
  | tooDeep
  deriving DecidableEq, Repr

/-- Read a document. -/
def read (cs : List Char) : Except Refusal Entries :=
  let lines := joinLineEnds cs
  match readStatements (lines.length + 1) ⟨[], .none, []⟩ lines with
  | .ok entries => .ok entries
  | .error (.malformed reason left) => .error (.fault ⟨reason, positionWithLeft lines left⟩)
  | .error (.tooManyDigits count) => .error (.tooManyDigits count)
  | .error .tooDeep => .error .tooDeep

end SourceGauge.Toml

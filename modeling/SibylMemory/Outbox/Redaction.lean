import SibylMemory.Library.Text

/-!
# Redaction of stored errors (`outbox.py:40-46`, `outbox.py:225-231`)

The two patterns of `_SECRET_PATTERNS` as left-to-right substitutions on a text
whose white space has already been collapsed to single blanks. Neither pattern
needs backtracking: what its next part may start with decides each step.
-/

namespace SibylMemory.Outbox

/-- Characters that `re.IGNORECASE` matches with a lower-case ASCII letter. -/
def foldChar (c : Char) : Char :=
  if 'A'.toNat ≤ c.toNat ∧ c.toNat ≤ 'Z'.toNat then Char.ofNat (c.toNat + 32)
  else if c = '\u212A' then 'k'
  else if c = '\u017F' then 's'
  else if c = '\u0130' ∨ c = '\u0131' then 'i'
  else c

/-- What is left of `cs` behind a case-insensitive match of `word`. -/
def matchWord : List Char → List Char → Option (List Char)
  | [], cs => some cs
  | _ :: _, [] => none
  | w :: ws, c :: cs => if foldChar c = w then matchWord ws cs else none

/-- `[-_ ]?` -/
def skipSeparator : List Char → List Char
  | c :: cs => if c = '-' ∨ c = '_' ∨ c = ' ' then cs else c :: cs
  | [] => []

/-- `api[-_ ]?key` and the like. -/
def matchPair (first second : String) (cs : List Char) : Option (List Char) :=
  (matchWord first.toList cs).bind fun rest => matchWord second.toList (skipSeparator rest)

/-- The alternatives of the second pattern, in order. -/
def matchSecretName (cs : List Char) : Option (List Char) :=
  matchPair "api" "key" cs <|> matchPair "access" "token" cs
    <|> matchWord "authorization".toList cs <|> matchWord "password".toList cs
    <|> matchWord "secret".toList cs

/-- `[^\s,;]` -/
def isTokenChar (c : Char) : Bool := !Text.isSpace c && c != ',' && c != ';'

/-- `[^\s,;]+` -/
def matchToken (cs : List Char) : Option (List Char) :=
  if (cs.takeWhile isTokenChar).isEmpty then none else some (cs.dropWhile isTokenChar)

/-- A closed quotation with the given quote. -/
def matchQuoted (quote : Char) : List Char → Option (List Char)
  | c :: cs =>
    if c = quote then
      match cs.dropWhile (· ≠ quote) with
      | _ :: rest => some rest
      | [] => none
    else none
  | [] => none

/-- `bearer\s+` followed by a token: the kept text's end and the rest behind the match. -/
def matchBearer (cs : List Char) : Option (List Char × List Char) :=
  (matchWord "bearer".toList cs).bind fun rest =>
    let value := rest.dropWhile Text.isSpace
    if value.length = rest.length then none
    else (matchToken value).map fun after => (value, after)

/-- The second pattern: name, `[:=]` with optional white space, and a value. -/
def matchAssignment (cs : List Char) : Option (List Char × List Char) :=
  (matchSecretName cs).bind fun rest =>
    match rest.dropWhile Text.isSpace with
    | c :: afterSign =>
      if c = ':' ∨ c = '=' then
        let value := afterSign.dropWhile Text.isSpace
        (matchQuoted '\'' value <|> matchQuoted '"' value <|> matchToken value).map
          fun after => (value, after)
      else none
    | [] => none

/-- `pattern.sub(r"\1[REDACTED]", text)`; `fuel` bounds the scan by the text's length. -/
def substitute (pattern : List Char → Option (List Char × List Char)) : Nat → List Char → List Char
  | 0, cs => cs
  | _, [] => []
  | fuel + 1, c :: cs =>
    match pattern (c :: cs) with
    | some (value, after) =>
      (c :: cs).take ((c :: cs).length - value.length) ++ "[REDACTED]".toList
        ++ substitute pattern fuel after
    | none => c :: substitute pattern fuel cs

/-- `" ".join(text.split())` -/
def collapseSpace (cs : List Char) : List Char :=
  let words := (cs.splitBy fun a b => Text.isSpace a == Text.isSpace b).filter
    fun w => !w.all Text.isSpace
  (Text.joinWith " " (words.map String.ofList)).toList

/-- `outbox.py:225-231` -/
def redactError (maxLength : Nat) (error : Option String) : Option String :=
  error.map fun text =>
    let sanitized := collapseSpace text.toList
    let first := substitute matchBearer sanitized.length sanitized
    let second := substitute matchAssignment first.length first
    String.ofList (second.take maxLength)

end SibylMemory.Outbox

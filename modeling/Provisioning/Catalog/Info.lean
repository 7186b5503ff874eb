/-!
What an extension's `info.xml` says about it.

The metadata file is not read as XML: two patterns pick out what is needed.

* The name is the value of a `key` attribute inside an `extension` tag: the
  text `<extension`, not followed by a word character, then anything but `>`,
  then `key` not preceded by a word character, blanks, `=`, blanks, a quote
  (double or single), at least one character that is no quote, and a quote.
  The first tag that has such an attribute counts, and within the tag the last
  attribute does, since the run of characters before it is as long as it can
  be. The value itself may hold a `>`.
* The short key is the text of a `file` element: `<file>`, blanks, at least
  one character that is neither a blank nor `<`, blanks, `</file>`. The first
  element of this shape counts.

Blanks are the Unicode white space characters, and word characters the
letters, digits and underscore.
-/

namespace Provisioning.Info

/-- The Unicode white space characters. -/
def isSpace (c : Char) : Bool :=
  let n := c.toNat
  (9 ≤ n && n ≤ 13) || n == 32 || n == 0x85 || n == 0xA0 || n == 0x1680 ||
    (0x2000 ≤ n && n ≤ 0x200A) || n == 0x2028 || n == 0x2029 || n == 0x202F || n == 0x205F ||
    n == 0x3000

/-- Characters of words, for word boundaries. -/
def isWordChar (c : Char) : Bool := c.isAlphanum || c == '_' || (c.toNat > 127 && !isSpace c)

/-- Whether a character is a quote of an attribute value. -/
def isQuote (c : Char) : Bool := c == '"' || c == '\''

/-- The value of `key = "value"` at the start of the text. -/
def keyValue? (cs : List Char) : Option String :=
  match cs with
  | 'k' :: 'e' :: 'y' :: rest =>
    match rest.dropWhile isSpace with
    | '=' :: rest =>
      match rest.dropWhile isSpace with
      | q :: rest =>
        if isQuote q then
          let v := rest.takeWhile fun c => !isQuote c
          if !v.isEmpty && (rest.drop v.length).any isQuote then some (String.ofList v) else none
        else none
      | [] => none
    | _ => none
  | _ => none

/-- The last `key` attribute inside a tag, scanning up to its `>`; `prev` is the
character before the text, `found` the value found so far. -/
def lastKey (prev : Char) (found : Option String) : List Char → Option String
  | [] => found
  | '>' :: _ => found
  | c :: rest =>
    let found := if isWordChar prev then found else
      match keyValue? (c :: rest) with
      | some v => some v
      | none => found
    lastKey c found rest

/-- The text after `<extension` at the start, when no word character follows it. -/
def afterExtensionTag? (cs : List Char) : Option (List Char) :=
  let tag := "<extension".toList
  if tag.isPrefixOf cs then
    let body := cs.drop tag.length
    match body with
    | c :: _ => if isWordChar c then none else some body
    | [] => some body
  else none

/-- The name in an `info.xml` text, from the first tag that gives one. -/
def keyIn : List Char → Option String
  | [] => none
  | c :: rest =>
    match afterExtensionTag? (c :: rest) with
    | some body =>
      match lastKey 'n' none body with
      | some v => some v
      | none => keyIn rest
    | none => keyIn rest

/-- The text of a `file` element whose content starts the text. -/
def fileValue? (cs : List Char) : Option String :=
  let cs := cs.dropWhile isSpace
  let v := cs.takeWhile fun c => c != '<' && !isSpace c
  if v.isEmpty then none
  else if "</file>".toList.isPrefixOf ((cs.drop v.length).dropWhile isSpace) then some (String.ofList v)
  else none

/-- The short key in an `info.xml` text, from the first `file` element that gives one. -/
def fileIn : List Char → Option String
  | [] => none
  | c :: rest =>
    let tag := "<file>".toList
    if tag.isPrefixOf (c :: rest) then
      match fileValue? ((c :: rest).drop tag.length) with
      | some v => some v
      | none => fileIn rest
    else fileIn rest

/-- The extension name an `info.xml` text gives. -/
def key? (xml : String) : Option String := keyIn xml.toList

/-- The short key an `info.xml` text gives. -/
def file? (xml : String) : Option String := fileIn xml.toList

example : key? "<extension key=\"org.example.a\"/>" = some "org.example.a" := by decide

example : key? "<extension key=\"k.x\" key=\"k.y\"/>" = some "k.y" := by decide

example : key? "<extensionfoo key=\"no.boundary\"/>" = none := by decide

example : file? "<file> e2etest </file>" = some "e2etest" := by decide

end Provisioning.Info

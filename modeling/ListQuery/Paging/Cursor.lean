import ListQuery.Codec.Base64
import ListQuery.Codec.Utf8
import ListQuery.Json.Reader
import ListQuery.Json.Writer

/-!
# Cursors

A cursor carries the key values of the last row of a page as an opaque token: a JSON object in
URL-safe base64. The token of the same entries is the same in whatever order they come.
-/

namespace ListQuery.Cursor

open Codec

/-- The token of key values. Values without a document have no token. -/
def encode (values : Value) : Except Failure String :=
  (Json.chars values).map fun cs => String.ofList (base64 (utf8 cs))

/-- The key values of a document. What cannot be read has none, but a document that is too deep is a
failure. -/
def valuesOf? (document : List Char) : Except Failure (Option (Entries Value)) :=
  match Json.read document with
  | .ok (.map values) => .ok (some (textEntries values))
  | .ok _             => .ok none
  | .error .tooDeep   => .error .tooDeep
  | .error _          => .ok none

/-- The key values of a token, unless it is malformed. -/
def decode? (token : String) : Except Failure (Option (Entries Value)) :=
  if token = "" then .ok none
  else
    match (readToken token.toList).bind strictUtf8? with
    | some cs => valuesOf? cs
    | none    => .ok none

/-- The key values of what was given as a token: nothing has none, and only a text can be read. -/
def ofValue? (token : Value) : Except Failure (Option (Entries Value)) :=
  if token.isVoid then .ok none
  else
    match token with
    | .text s => decode? s
    | _       => .error .wrongKind

end ListQuery.Cursor

import DemoPages.Keyed
import DemoPages.Text.Pieces

/-!
# Attributes of a demo

What stands behind the language of a fence is a list of tokens between single spaces, each a key
with a value or a key alone. `Attributes.parse` gives the value of each key, the last token with
that key counting, and the tokens as parameters, in order.
-/

namespace DemoPages

/-- The value of an attribute. -/
inductive Attribute where
  /-- The key stood alone. -/
  | flag
  | text (value : String)
  deriving DecidableEq, Repr

/-- A key with its value, as a token gives it. -/
structure Token where
  key : String
  value : Attribute
  deriving DecidableEq, Repr

namespace Token

/-- Reads a token: the key ends at the first equals sign. -/
def parse (s : List Char) : Token :=
  match Text.cut '=' s with
  | (key, some value) => ⟨String.ofList key, .text (String.ofList value)⟩
  | (key, none) => ⟨String.ofList key, .flag⟩

/-- The token as a parameter; a key alone is given the value `true`. -/
def param (t : Token) : String :=
  match t.value with
  | .flag => t.key ++ "=true"
  | .text value => t.key ++ "=" ++ value

end Token

/-- The attributes of a demo, and its parameters. -/
structure Attributes where
  values : Keyed String Attribute := {}
  params : List String := []
  deriving DecidableEq, Repr

namespace Attributes

/-- The tokens of the text behind a language; without text there is one empty token. -/
def tokens (info : Option String) : List Token :=
  (Text.split ' ' (info.getD "").toList).map Token.parse

/-- The attributes that some tokens give. -/
def ofTokens (ts : List Token) : Attributes :=
  ⟨ts.foldl (fun m t => m.put t.key t.value) {}, ts.map Token.param⟩

/-- Reads the text behind a language. -/
def parse (info : Option String) : Attributes := ofTokens (tokens info)

end Attributes

end DemoPages

import JobRelay.Model.Text
import JobRelay.Sessions.Table

/-! # The environment of a service

A service reads `KEY=value` lines from the file `.env` next to it, sets the variables that its process does not have
yet, and takes its settings from the environment. Both services share the module. Dictionaries are tables: an
assignment to a key that is there changes the value in place, and any other appends.
-/

namespace JobRelay.Model.EnvFile

open Sessions

/-- A `dict[str, str]`. -/
abbrev Values := Table (Prod.fst : String × String → String)

/-- `values[key] = value` -/
def assign (values : Values) (key value : String) : Values := (values.put (key, value)).insert (key, value)

/-- `values.get(key)` -/
def get? (values : Values) (key : String) : Option String := (values.find? key).map Prod.snd

/-- The `ValueError`s that loading a file raises. -/
inductive LoadError where
  /-- The `UnicodeDecodeError` of `read_text`. -/
  | undecodable
  /-- `embedded null byte` -/
  | embeddedNullByte
deriving DecidableEq

/-- Universal newlines: `\r\n` and `\r` are read as `\n`. -/
def translateNewlines : List Char → List Char
  | [] => []
  | '\r' :: '\n' :: rest => '\n' :: translateNewlines rest
  | '\r' :: rest => '\n' :: translateNewlines rest
  | c :: rest => c :: translateNewlines rest

/-- `Path.read_text` in UTF-8, the encoding of the locale in the services' images. -/
def readText (file : ByteArray) : Except LoadError (List Char) :=
  match String.fromUTF8? file with
  | none => .error .undecodable
  | some text => .ok (translateNewlines text.toList)

/-- What ends a line for `str.splitlines`. -/
def isLineBoundary (c : Char) : Bool :=
  (0x0a ≤ c.val && c.val ≤ 0x0d) || (0x1c ≤ c.val && c.val ≤ 0x1e) || c.val = 0x85 || c.val = 0x2028 || c.val = 0x2029

/-- `str.splitlines` -/
def splitLines : List Char → List (List Char)
  | [] => []
  | '\r' :: '\n' :: rest => [] :: splitLines rest
  | c :: rest =>
      if isLineBoundary c then [] :: splitLines rest
      else
        match splitLines rest with
        | [] => [[c]]
        | line :: lines => (c :: line) :: lines

def isQuote (c : Char) : Bool := c = '\'' || c = '"'

/-- The key and the value of a line, unless `parse_env_file` skips it. -/
def parseLine (line : List Char) : Option (String × String) :=
  let line := (stripped isPythonSpace (String.ofList line)).toList
  if line = [] ∨ line.head? = some '#' ∨ '=' ∉ line then none
  else
    -- `line.partition("=")`
    let key := stripped isPythonSpace (String.ofList (line.takeWhile (· ≠ '=')))
    let value := String.ofList (line.dropWhile (· ≠ '=')).tail
    if key.isEmpty then none else some (key, stripped isQuote (stripped isPythonSpace value))

/-- `parse_env_file`, given the bytes of the file. -/
def parseEnvFile (file : ByteArray) : Except LoadError Values := do
  let text ← readText file
  return (splitLines text).foldl (fun values line =>
    match parseLine line with
    | none => values
    | some (key, value) => assign values key value) .empty

/-- `os.environ.setdefault`; the operating system takes no null character. -/
def setDefault (environ : Values) (key value : String) : Except LoadError Values :=
  if (get? environ key).isSome then .ok environ
  else if '\x00' ∈ key.toList ∨ '\x00' ∈ value.toList then .error .embeddedNullByte
  else .ok (assign environ key value)

/-- The loop of `load_env`. -/
def setDefaults (environ : Values) : List (String × String) → Except LoadError Values
  | [] => .ok environ
  | (key, value) :: rest => (setDefault environ key value).bind fun environ => setDefaults environ rest

/-- `load_env` of the file that `find_env_file` finds: the environment after it, and what it returns. -/
def loadEnv (environ : Values) : Option ByteArray → Except LoadError (Values × Values)
  | none => return (environ, .empty)
  | some file => do
      let values ← parseEnvFile file
      let environ ← setDefaults environ values.rows
      return (environ, values)

/-- The raw values of `_from_environ`: the fields whose variables are set. -/
def fromEnviron (upper : String → String) (fields : List String) (environ : Values) : List (String × String) :=
  fields.filterMap fun name => (get? environ (upper name)).map fun value => (name, value)

end JobRelay.Model.EnvFile

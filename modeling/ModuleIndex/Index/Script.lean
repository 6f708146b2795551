import ModuleIndex.Index.Encoding
import ModuleIndex.Json.Parser
import ModuleIndex.Json.Printer
import ModuleIndex.Text.Blank

/-!
# The script form of an index

A published index is a script that calls `initSidebarItems` with the JSON form. The bare JSON
form is read as well.
-/

namespace ModuleIndex.Index

def scriptCall : List Char :=
  ['i', 'n', 'i', 't', 'S', 'i', 'd', 'e', 'b', 'a', 'r', 'I', 't', 'e', 'm', 's']

/-! ## Reading -/

/-- What stands between the parentheses of a call, given the text after the opening one. The
call may end with one semicolon. -/
def callArgument? (text : List Char) : Option (List Char) :=
  let call := Text.trimEnd ((Text.before? [';'] text).getD text)
  (Text.before? [')'] call).map Text.trim

/-- The JSON text of a script, or of a bare JSON object, without the blanks around it. -/
def payload? (script : List Char) : Option (List Char) :=
  let text := Text.trim script
  if ['{'].isPrefixOf text then some text
  else do
    let call ← Text.after? scriptCall text
    let argument ← Text.after? ['('] (Text.trimStart call)
    callArgument? argument

/-- The index of a script or of a bare JSON object. -/
def parse (script : String) : Except IndexFault Index :=
  match payload? script.toList with
  | none => .error .unknownWrapper
  | some text =>
    match Json.parse text with
    | .error e => .error (.json e)
    | .ok v => ofJson v

/-- The index of a JSON text without a script around it. The value is judged as soon as it has
been read, before what follows it. -/
def parseJson (text : String) : Except IndexFault Index :=
  match Json.parseStart text.toList with
  | .error e => .error (.json e)
  | .ok (v, rest) =>
    match ofJson v with
    | .error fault => .error fault
    | .ok index =>
      match Json.parseEnd text.toList rest with
      | .error e => .error (.json e)
      | .ok () => .ok index

/-! ## Writing -/

def compactText (index : Index) : List Char :=
  index.toJson.compact

def prettyText (index : Index) : List Char :=
  index.toJson.pretty 0

def toScript (index : Index) : String :=
  String.ofList (scriptCall ++ '(' :: index.compactText ++ [')', ';'])

end ModuleIndex.Index

import Scribe.Document
import Scribe.Yaml.Content
import Scribe.Yaml.Print

/-!
# Log files

**A log file** holds the document of a recording as YAML in UTF-8.

* `Scribe.LogFile.write` – the text of the file of a recording;
* `Scribe.LogFile.read` – the way back from the bytes of a file, with all that can go wrong.

How a value becomes a text, and a text a value, is up to a library for YAML: `writeWith` and
`readWith` take its two functions, `write` and `read` are with those at hand.

What goes wrong is for the most part reported under a heading of its own
(`Scribe.LogFile.Fault.heading?`). Three kinds of fault have none: bytes that are no text, scalars
that their own type cannot hold, and closed pages that cannot be listed.
-/

namespace Scribe.LogFile

/-- **What is wrong with a log file.** -/
inductive Fault where
  /-- There is no such file. -/
  | missing
  /-- Its bytes are not UTF-8. -/
  | notText
  /-- Its text is no YAML, or holds an unreadable scalar. -/
  | markup (f : Yaml.Fault)
  /-- Its document is not that of a recording. -/
  | document (e : DocumentError)
  deriving Repr, DecidableEq

/-- The heading under which a fault is reported, if it is. -/
def Fault.heading? : Fault → Option String
  | missing | markup (.malformed _) => some "ログファイルを読み込めません"
  | document .notMap => some "ログファイルの形式が不正です"
  | document .aliasesNotMap => some "aliases はマッピングで指定してください"
  | document .actionsNotList => some "actions はリストで指定してください"
  | document (.shape _) => some "ログファイルの検証に失敗しました"
  | document (.violation _) => some "ログファイルのアクション列が不正です"
  | notText | markup (.unreadable _) | document .releasedNotListed => none

/-- The text of a file in which every line ends with a line feed. -/
def withLineFeeds : List Char → List Char
  | '\r' :: '\n' :: rest => '\n' :: withLineFeeds rest
  | '\r' :: rest => '\n' :: withLineFeeds rest
  | c :: rest => c :: withLineFeeds rest
  | [] => []

/-- The text of the log file of a recording, in the words of a printer of YAML. -/
def writeWith (print : Value → List Char) (actions : List Action) (aliases : AliasTable) :
    String :=
  String.ofList (print (document actions aliases))

/-- Reads the text of a log file, as far as a reader of YAML goes. -/
def readTextWith (readYaml : List Char → Except Yaml.Fault Value) (text : String) :
    Except Fault (List Action × AliasTable) :=
  match readYaml (withLineFeeds text.toList) with
  | .error f => .error (.markup f)
  | .ok v => (readDocument v).mapError .document

/-- Reads a log file with a reader of YAML, given the bytes of the file if there is one. -/
def readWith (readYaml : List Char → Except Yaml.Fault Value) (content : Option ByteArray) :
    Except Fault (List Action × AliasTable) :=
  match content with
  | none => .error .missing
  | some bytes =>
    match String.fromUTF8? bytes with
    | none => .error .notText
    | some text => readTextWith readYaml text

/-- **The text of the log file** of a recording. -/
def write (actions : List Action) (aliases : AliasTable) : String :=
  writeWith Yaml.print actions aliases

/-- **Reads the text** of a log file. -/
def readText (text : String) : Except Fault (List Action × AliasTable) :=
  readTextWith Yaml.read text

/-- **Reads a log file**, given its bytes if there is one. -/
def read (content : Option ByteArray) : Except Fault (List Action × AliasTable) :=
  readWith Yaml.read content

end Scribe.LogFile

import KataGo.Game.LocationText
import KataGo.Lib.SortedMap
import Mathlib.Data.List.Lex

/-! Configuration files, after `cpp/core/config_parser.cpp`. A text is the list of its characters, and the
files that can be opened are a function of their paths. -/

namespace KataGo.Core
open KataGo.Game KataGo.Lib

abbrev Text := List Char

inductive ConfigError where
  | configParsingError (message : Text)
  | ioError (message : Text)
  | stringError (message : Text)
  /-- More files include each other than the reader follows. -/
  | tooDeep
deriving DecidableEq

structure ConfigParser where
  initialized : Bool
  fileName : Text
  contents : Text
  keyValues : SortedMap Text Text
  keysOverrideEnabled : Bool
  keysOverrideFromIncludes : Bool
  curLineNum : Nat
  curFilename : Text
  includedFiles : List Text
  baseDirs : List Text
  logMessages : List Text

namespace ConfigParser

def new (keysOverride keysOverrideFromIncludes : Bool) : ConfigParser where
  initialized := false
  fileName := []
  contents := []
  keyValues := .empty
  keysOverrideEnabled := keysOverride
  keysOverrideFromIncludes := keysOverrideFromIncludes
  curLineNum := 0
  curFilename := []
  includedFiles := []
  baseDirs := []
  logMessages := []

/-- The blanks of `isWhitespace`, which finds the end of its C string as well. -/
def isWhitespace (c : Char) : Bool := c = '\x00' || Global.isDelim c

def isKeyChar (c : Char) : Bool := Global.isAlpha c || Global.isDigit c || c = '_' || c = '-'

/-- A step of the scanner: it throws, returns `false`, or goes on. -/
abbrev Scan := OptionT (Except ConfigError)

def raise {α : Type} (e : ConfigError) : Scan α := .mk (.error e)

section Scanner

variable (fail : ConfigError)

/-- Parse the key. -/
def parseKey (key : Text) : Text → Scan (Text × Text)
  | [] => pure (key, [])
  | c :: rest =>
    if isKeyChar c then parseKey (key ++ [c]) rest
    else if c = '#' then if key ≠ [] then raise fail else failure
    else if isWhitespace c ∨ c = '=' then pure (key, c :: rest)
    else raise fail

/-- Skip whitespace after the key. -/
def skipToEquals (foundAnyKey : Bool) : Text → Scan Text
  | [] => pure []
  | c :: rest =>
    if isWhitespace c then skipToEquals foundAnyKey rest
    else if c = '#' then if foundAnyKey then raise fail else failure
    else if c = '=' then pure (c :: rest)
    else raise fail

/-- Skip whitespace after the equals sign. -/
def skipToValue (found : Bool) : Text → Scan Text
  | [] => pure []
  | c :: rest =>
    if isWhitespace c then skipToValue found rest
    else if c = '#' then if found then raise fail else failure
    else pure (c :: rest)

/-- The value up to its closing quote, and what follows it. -/
def quotedValue (value : Text) : Text → Scan (Text × Text)
  | [] => raise fail
  | ['\\'] => raise fail
  | '\\' :: c :: rest => quotedValue (value ++ [c]) rest
  | '"' :: rest => pure (value, rest)
  | c :: rest => quotedValue (value ++ [c]) rest

/-- The rest of the line can only be whitespace followed by a comment. -/
def checkRemainder (remainder : Text) : Scan Unit :=
  let remainder := Global.trim remainder
  if remainder.length > 0 ∧ remainder.head? ≠ some '#' then raise fail else pure ()

structure Found where
  isDoubleQuotes : Bool
  foundAnyValue : Bool
  value : Text

/-- Parse the value, up to a comment. -/
def parseValue : Text → Scan Found
  | '"' :: rest => do
    let (value, remainder) ← quotedValue fail [] rest
    checkRemainder fail remainder
    return ⟨true, value ≠ [], value⟩
  | rest =>
    let value := rest.takeWhile (· ≠ '#')
    return ⟨false, value ≠ [], Global.trim value⟩

end Scanner

def lineAndFileInfo (self : ConfigParser) : Text :=
  ", line ".toList ++ Json.decimal self.curLineNum ++ " in '".toList ++ self.curFilename ++ "'".toList

def parsingError (self : ConfigParser) (message : String) : ConfigError :=
  .configParsingError (message.toList ++ self.lineAndFileInfo)

def parseKeyValue (self : ConfigParser) (trimmedLine : Text) : Scan (Text × Text) := do
  let fail := self.parsingError "Could not parse key value pair"
  let (key, rest) ← parseKey fail [] trimmedLine
  let foundAnyKey : Bool := key ≠ []
  let rest ← skipToEquals fail foundAnyKey rest
  let foundEquals : Bool := rest ≠ []
  let rest ← skipToValue fail (foundAnyKey || foundEquals) rest.tail
  let ⟨isDoubleQuotes, foundAnyValue, value⟩ ← parseValue fail rest
  if isDoubleQuotes && !(foundAnyKey && foundAnyValue) then raise fail
  else if foundEquals && !(foundAnyKey && foundAnyValue) then raise fail
  else if foundAnyKey ≠ foundAnyValue then raise fail
  else if foundAnyKey then return (key, value)
  else failure

/-- What stands between a directive and its value. -/
def isSeparator (c : Char) : Bool := c ∈ [' ', '\t', '\x0b', '\x0c', '=']

/-- The file name of a line that starts with `@`. -/
def includeName (self : ConfigParser) (line : Text) : Except ConfigError Text :=
  let line := line.takeWhile (· ≠ '#')
  if line.length < 9 then throw (self.parsingError "Unsupported @ directive")
  else if line.all fun c => !isSeparator c then
    throw (self.parsingError "@ directive without value (key-val separator is not found)")
  else
    let key := Global.trim (line.takeWhile fun c => !isSeparator c)
    if key ≠ "@include".toList then
      throw (.configParsingError ("Unsupported @ directive '".toList ++ key ++ "'".toList ++ self.lineAndFileInfo))
    else
      let value := (line.dropWhile fun c => !isSeparator c).tail
      if value.all isSeparator then
        throw (self.parsingError "@ directive without value (value after key-val separator is not found)")
      else
        let value := Global.trim (value.dropWhile isSeparator)
        let value := TextFields.trim (· = '\x27') value
        return TextFields.trim (· = '\x22') value

/-- The directory of a path, with its last slash. -/
def extractBaseDir (fname : Text) : Text := (fname.reverse.dropWhile fun c => c ≠ '/' ∧ c ≠ '\\').reverse

/-- Record a pair, unless its key was there before and must not be overridden. -/
def addKeyValue (self : ConfigParser) (curFileKeys : List Text) (key value : Text) :
    Except ConfigError ConfigParser := do
  let twice := "Key '".toList ++ key ++ "' + was specified multiple times in ".toList ++ self.curFilename
  let message := "Key '".toList ++ key ++ "' + was overriden by new value '".toList ++ value ++ "'".toList ++
    self.lineAndFileInfo
  if key ∈ curFileKeys ∧ self.keysOverrideEnabled = false then
    throw (.configParsingError (twice ++ ", you probably didn't mean to do this, please delete one of them".toList))
  else if self.keyValues.contains key ∧ self.keysOverrideFromIncludes = false then
    throw (.configParsingError (twice ++ " or its included files, and key overriding is disabled".toList))
  else
    let again := if key ∈ curFileKeys then [message] else []
    let before := if self.keyValues.contains key then [message] else []
    return { self with
      keyValues := self.keyValues.set key value
      logMessages := self.logMessages ++ again ++ before }

/-- The loop over the lines of a stream. -/
def readLines (processIncludedFile : ConfigParser → Text → Except ConfigError ConfigParser) :
    List Text → ConfigParser → List Text → Except ConfigError ConfigParser
  | [], self, _ => pure self
  | line :: lines, self, curFileKeys =>
    let self := { self with curLineNum := self.curLineNum + 1 }
    let line := Global.trim line
    if line.length = 0 ∨ line.head? = some '#' then readLines processIncludedFile lines self curFileKeys
    else if line.head? = some '@' then do
      let value ← self.includeName line
      let included ← processIncludedFile self value
      readLines processIncludedFile lines { included with curLineNum := self.curLineNum } curFileKeys
    else do
      match ← (self.parseKeyValue line).run with
      | none => readLines processIncludedFile lines self curFileKeys
      | some (key, value) => do
        let self ← self.addKeyValue curFileKeys key value
        readLines processIncludedFile lines self (key :: curFileKeys)

section Files

variable (files : Text → Option Text)

def openFile (path : Text) : Except ConfigError Text :=
  match files path with
  | some contents => pure contents
  | none => throw (.ioError ("Could not open file ".toList ++ path ++
      " - does not exist or invalid permissions?".toList))

/-- Read a file under the directories of those that include it. -/
def processIncludedFile (readStreamContent : ConfigParser → Text → Except ConfigError ConfigParser)
    (self : ConfigParser) (fname : Text) : Except ConfigError ConfigParser := do
  if fname = self.fileName ∨ fname ∈ self.includedFiles then
    throw (.configParsingError ("Circular or multiple inclusion of the same file: '".toList ++ fname ++ "'".toList ++
      self.lineAndFileInfo))
  else
    let fpath := self.baseDirs.flatten ++ fname
    let baseDir := extractBaseDir fname
    if baseDir.head? = some '\\' ∨ baseDir.head? = some '/' then
      throw (.configParsingError "Absolute paths in the included files are not supported yet".toList)
    else
      let stream ← openFile files fpath
      let baseDirs := if baseDir = [] then self.baseDirs else self.baseDirs ++ [baseDir]
      let self ← readStreamContent { self with
        includedFiles := self.includedFiles ++ [fname]
        curFilename := fname
        baseDirs } stream
      return if baseDir = [] then self else { self with baseDirs := self.baseDirs.dropLast }

/-- Read a stream, with a way to read the files that it includes. -/
def readStreamWith (processIncludedFile : ConfigParser → Text → Except ConfigError ConfigParser) (self : ConfigParser)
    (stream : Text) : Except ConfigError ConfigParser := do
  let lines := Global.split stream '\n'
  let self ← readLines processIncludedFile lines { self with curLineNum := 0 } []
  return { self with contents := self.contents ++ lines.flatMap fun line => line ++ ['\n'] }

/-- Read a stream in which files include each other at most to a depth. -/
def readStreamContent : Nat → ConfigParser → Text → Except ConfigError ConfigParser
  | 0 => readStreamWith fun _ _ => throw .tooDeep
  | depth + 1 => readStreamWith (processIncludedFile files (readStreamContent depth))

def initializeInternal (depth : Nat) (self : ConfigParser) (stream : Text) : Except ConfigError ConfigParser :=
  readStreamContent files depth { self with keyValues := .empty, contents := [], curFilename := self.fileName } stream

def notInitialized (self : ConfigParser) : Except ConfigError Unit :=
  if self.initialized then
    throw (.stringError "ConfigParser already initialized, cannot initialize again".toList)
  else pure ()

/-- Read the file of a name. -/
def initializeFile (depth : Nat) (self : ConfigParser) (fname : Text) : Except ConfigError ConfigParser := do
  self.notInitialized
  let stream ← openFile files fname
  let baseDir := extractBaseDir fname
  let baseDirs := if baseDir = [] then self.baseDirs else self.baseDirs ++ [baseDir]
  let self ← initializeInternal files depth { self with fileName := fname, baseDirs } stream
  return { self with initialized := true }

/-- Read a stream that has no name. -/
def initializeStream (depth : Nat) (self : ConfigParser) (stream : Text) : Except ConfigError ConfigParser := do
  self.notInitialized
  let self ← initializeInternal files depth self stream
  return { self with initialized := true }

end Files

def getAllKeyVals (self : ConfigParser) : Text :=
  self.keyValues.entries.flatMap fun it => it.1 ++ " = ".toList ++ it.2 ++ ['\n']

end ConfigParser

end KataGo.Core

/-
Module: ClauseEngine.Config
Purpose: The settings of an engine and their text format. Every setting has a default. A document
  gives settings by name, or all of them by position; settings are read in the order of their
  names, and the first fault decides the error.
Main exports: Config, Config.standard, Config.read, Config.ofText, Config.validate
-/
import ClauseEngine.Json.Parser
import ClauseEngine.Quoted
import ClauseEngine.Registry

namespace ClauseEngine

/-- The settings of an engine. -/
structure Config where
  subtyping : Subtyping
  multiBrandCast : Bool
  maxDepth : Nat
  errorBrand : String
deriving DecidableEq, Repr

namespace Config

/-- The brand of error values unless a setting or a contract says otherwise. -/
def standardErrorBrand : String := "org.accordproject.ergo.stdlib.ErgoErrorResponse"

/-- The default settings. -/
def standard : Config := ⟨.declared, false, 512, standardErrorBrand⟩

/-- A document as messages describe it. -/
def describe : Json → String
  | .null => "null"
  | .bool true => "boolean `true`"
  | .bool false => "boolean `false`"
  | .int z => s!"integer `{z}`"
  | .float x => s!"floating point `{Json.floatText x}`"
  | .string s => s!"string {Quoted.write s}"
  | .array _ => "sequence"
  | .object _ => "map"

/-- The error of a document of the wrong type. -/
def wrongType {α : Type} (found : Json) (expected : String) : Except ConfigError α :=
  .error (.invalidType (describe found) expected)

/-- A way of subtyping by its name. -/
def subtypingOfName (name : String) : Except ConfigError Subtyping :=
  if name = "declared" then .ok .declared
  else if name = "transitive" then .ok .transitive
  else .error (.unknownVariant name)

/-- A way of subtyping: its name, or an object with the name as its only field and no content. -/
def readSubtyping : Json → Except ConfigError Subtyping
  | .string name => subtypingOfName name
  | .object [(name, content)] => do
      let subtyping ← subtypingOfName name
      match content with
      | .null => return subtyping
      | other => wrongType other "unit"
  | .object _ => .error (.invalidValue "map" "map with a single key")
  | other => wrongType other "string or map"

def readBool : Json → Except ConfigError Bool
  | .bool b => .ok b
  | other => wrongType other "a boolean"

def readString : Json → Except ConfigError String
  | .string s => .ok s
  | other => wrongType other "a string"

/-- A natural number that a 64-bit word holds. -/
def readNatural (j : Json) : Except ConfigError Nat :=
  match j.natural? with
  | some n => .ok n
  | none =>
      match j with
      | .int _ => .error (.invalidValue (describe j) "usize")
      | other => wrongType other "usize"

/-- The settings by name. -/
inductive Setting where
  | subtyping
  | multiBrandCast
  | maxDepth
  | errorBrand
deriving DecidableEq, Repr

namespace Setting

/-- The order in which settings are given by position. -/
def all : List Setting := [.subtyping, .multiBrandCast, .maxDepth, .errorBrand]

def name : Setting → String
  | .subtyping => "subtyping"
  | .multiBrandCast => "multi_brand_cast"
  | .maxDepth => "max_depth"
  | .errorBrand => "error_brand"

def ofName (name : String) : Except ConfigError Setting :=
  match all.find? fun setting => setting.name == name with
  | some setting => .ok setting
  | none => .error (.unknownField name)

end Setting

/-- Change one setting to what a document says. -/
def set (c : Config) (setting : Setting) (content : Json) : Except ConfigError Config :=
  match setting with
  | .subtyping => do return { c with subtyping := ← readSubtyping content }
  | .multiBrandCast => do return { c with multiBrandCast := ← readBool content }
  | .maxDepth => do return { c with maxDepth := ← readNatural content }
  | .errorBrand => do return { c with errorBrand := ← readString content }

/-- The settings that an engine accepts. -/
def validate (c : Config) : Except ConfigError Unit :=
  if c.maxDepth = 0 then .error .zeroDepth
  else if c.errorBrand.isEmpty then .error .emptyErrorBrand
  else .ok ()

/-- The settings of a document, before validation. -/
def readSettings : Json → Except ConfigError Config
  | .object fields => fields.foldlM (fun c field => do
      c.set (← Setting.ofName field.1) field.2) standard
  | .array items => do
      let c ← (Setting.all.zip items).foldlM (fun c entry => c.set entry.1 entry.2) standard
      if Setting.all.length < items.length then .error (.invalidLength items.length)
      else return c
  | other => wrongType other "struct EngineConfig"

/-- Read and validate settings. -/
def read (j : Json) : Except ConfigError Config := do
  let c ← readSettings j
  c.validate
  return c

/-- The deepest nesting of a settings text. -/
def textNesting : Nat := 127

/-- Read settings from text. -/
def ofText (text : String) : Except ConfigError Config :=
  match Json.parse? textNesting text with
  | some j => read j
  | none => .error .notJson

end Config

end ClauseEngine

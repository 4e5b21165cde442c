import PatternEngine.Diagnostic
import PatternEngine.Json.Reader
/-!
# Diagnostics and configurations as documents

What an engine hands out about diagnostics and about its configuration can be read back into
records. A record is written with its fields in a fixed order, and without those that it lacks.
-/
namespace PatternEngine

open PatternEngine.Json (Malformation Reader)

namespace Diagnostic

inductive FieldValue where
  | text (bytes : Bytes)
  | number (n : Nat)
  | severity (severity : Severity)
  | absent

def textField (name : String) : Reader.Field FieldValue :=
  ⟨text name, .text <$> Reader.textValue, true⟩

/-- A field that may be left out or `null`. -/
def optionalField (name : String) (value : Reader FieldValue) : Reader.Field FieldValue :=
  ⟨text name, (·.getD .absent) <$> Reader.optional value, false⟩

def fields : List (Reader.Field FieldValue) := [
  textField "who",
  ⟨text "severity", .severity <$> Reader.choice Severity.ofName?, true⟩,
  textField "message",
  optionalField "line" (.number <$> Reader.naturalValue),
  optionalField "filename" (.text <$> Reader.textValue),
  optionalField "expression" (.text <$> Reader.textValue)]

def FieldValue.toText? : Option FieldValue → Option Bytes
  | some (.text bytes) => some bytes
  | _ => none

def FieldValue.toNat? : Option FieldValue → Option Nat
  | some (.number n) => some n
  | _ => none

def reader : Reader Diagnostic := do
  match ← Reader.record fields with
  | [some (.text who), some (.severity severity), some (.text message), line, filename,
      expression] =>
    return {
      who, severity, message
      line := FieldValue.toNat? line
      filename := FieldValue.toText? filename
      expression := FieldValue.toText? expression }
  | _ => throw .form

/-- Reads the diagnostics that an operation has handed out. -/
def parse (source : Bytes) : Except Malformation (List Diagnostic) :=
  Reader.readAll (Reader.array reader) source

def document (d : Diagnostic) : Json := .object <|
  [(text "who", .str d.who), (text "severity", .str d.severity.name),
    (text "message", .str d.message)] ++
  (d.line.toList.map fun (n : Nat) => (text "line", Json.int n)) ++
  (d.filename.toList.map fun f => (text "filename", Json.str f)) ++
  (d.expression.toList.map fun e => (text "expression", Json.str e))

end Diagnostic

structure ConfigEntry where
  name : Bytes
  value : Bytes
  description : Bytes
  deriving DecidableEq, Repr

namespace ConfigEntry

def fields : List (Reader.Field Bytes) :=
  [⟨text "name", Reader.textValue, true⟩, ⟨text "value", Reader.textValue, true⟩,
    ⟨text "description", Reader.textValue, true⟩]

def reader : Reader ConfigEntry := do
  match ← Reader.record fields with
  | [some name, some value, some description] => return ⟨name, value, description⟩
  | _ => throw .form

/-- Reads a report on the configuration (`parse_config`). -/
def parse (source : Bytes) : Except Malformation (List ConfigEntry) :=
  Reader.readAll (Reader.array reader) source

def document (e : ConfigEntry) : Json := .object
  [(text "name", .str e.name), (text "value", .str e.value),
    (text "description", .str e.description)]

end ConfigEntry

end PatternEngine

import PatternEngine.Primitive
/-!
# Traces

A trace tells how a pattern matches at a place: in one line, with the source and the groups, or as
a record. It is made of the values that the matching primitive returns.
-/
namespace PatternEngine

inductive TraceStyle where
  | condensed
  | full
  | json
  deriving DecidableEq, Repr

namespace TraceStyle

def name : TraceStyle → Bytes
  | .condensed => text "condensed"
  | .full => text "full"
  | .json => text "json"

def ofName? (name : Bytes) : Option TraceStyle :=
  [TraceStyle.condensed, .full, .json].find? (·.name == name)

end TraceStyle

namespace Tracing

/-- A number or a text in a line. -/
def shown : Value → Bytes
  | .str bytes => bytes
  | .int n => Bytes.ofInt n
  | _ => []

/-- A group as it is listed, with its bytes. -/
structure Group where
  name : Value
  first : Value
  last : Value
  data : Bytes

/-- The groups in a flat list of names, starts and ends (`capture_list`). -/
def groups (input : Bytes) : List Value → List Group
  | name :: first :: last :: rest =>
    ⟨name, first, last, Primitive.slice input first.toInt? last.toInt?⟩ :: groups input rest
  | _ => []

def Group.record (g : Group) : Value := .record [
  (text "name", g.name),
  (text "s", g.first),
  (text "e", g.last),
  (text "data", .str g.data)]

-- the names of groups are texts; their bytes need not be
def Group.line (g : Group) : Bytes :=
  text "  " ++ shown g.name ++ text " " ++ shown g.first ++ text ".." ++ shown g.last ++
    text ": " ++ Text.Utf8.lossy g.data

/-- What is traced: the texts of a pattern, where its match was to start, and what came of it. -/
structure Finding where
  expression : Bytes
  source : Bytes
  position : Int
  first : Value
  last : Value
  leftover : Value
  groups : List Group

namespace Finding

def matched (f : Finding) : Bool := f.first.isTrue

def record (f : Finding) : Value := .record [
  (text "expression", .str f.expression),
  (text "source", .str f.source),
  (text "start", .int f.position),
  (text "matched", .bool f.matched),
  (text "s", if f.matched then f.first else .nil),
  (text "e", f.last),
  (text "leftover", f.leftover),
  (text "subs", .table (f.groups.map Group.record) [])]

/-- The line that tells whether there is a match. -/
def headline (f : Finding) : Bytes :=
  if f.matched then
    text "Matched " ++ f.expression ++ text " at " ++ shown f.first ++ text ".." ++ shown f.last ++
      text ", leftover " ++ shown f.leftover
  else text "No match for " ++ f.expression ++ text " at " ++ Bytes.ofInt f.position

def lines (style : TraceStyle) (f : Finding) : List Bytes :=
  let more :=
    if style = .full then (text "  regex: " ++ f.source) :: f.groups.map Group.line else []
  f.headline :: more

def render (style : TraceStyle) (f : Finding) : Value :=
  if style = .json then f.record else .str (Bytes.join [Bytes.newline] (f.lines style))

end Finding

end Tracing

end PatternEngine

import PatternEngine.FileSystem
/-!
# The standard library

The packages that come with an installation: sources that bind expressions for numbers, words and
network addresses. An installation is a directory with the start-up script and these packages.
-/
namespace PatternEngine

namespace StandardLibrary

def use (name : String) : String := "$\x7b" ++ name ++ "\x7d"

def source (lines : List String) : Bytes :=
  lines.flatMap fun line => text line ++ [Bytes.newline]

def net : Bytes := source [
  "-- Network addresses",
  "package net",
  "import num",
  "",
  "octet = 25[0-5]|2[0-4][0-9]|1[0-9][0-9]|[1-9]?[0-9]",
  "ipv4 = " ++ use "octet" ++ "\\." ++ use "octet" ++ "\\." ++ use "octet" ++ "\\." ++ use "octet",
  "port = " ++ use "num.digit" ++ "\x7b1,5\x7d",
  "hostport = (?P<host>" ++ use "ipv4" ++ "):(?P<port>" ++ use "port" ++ ")"]

def num : Bytes := source [
  "-- Numbers",
  "package num",
  "",
  "digit = [0-9]",
  "int = [+-]?" ++ use "digit" ++ "+",
  "frac = \\." ++ use "digit" ++ "+",
  "float = " ++ use "int" ++ use "frac" ++ "?(?:[eE][+-]?" ++ use "digit" ++ "+)?",
  "hex = 0[xX][0-9a-fA-F]+"]

def word : Bytes := source [
  "-- Words and identifiers",
  "package word",
  "",
  "alpha = [A-Za-z]+",
  "any = [^ \\t\\r\\n]+",
  "id = [A-Za-z_][A-Za-z0-9_]*"]

def packages : List (Bytes × Bytes) := [(text "net", net), (text "num", num), (text "word", word)]

/-- What stands in the start-up script. The module that it starts is fixed, so its text is only
looked for and never read. -/
def bootScript : Bytes := text "-- starts the runtime module\n"

/-- Puts an installation with the packages at a place. -/
def install (files : FileSystem) (root : Place) : FileSystem :=
  let withScript := files.put (root ++ [text "lib", text "boot.lua"]) bootScript
  packages.foldl
    (fun files (name, source) => files.put (root ++ [text "rpl", name ++ text ".rpl"]) source)
    withScript

end StandardLibrary

end PatternEngine

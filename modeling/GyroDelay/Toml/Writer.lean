import GyroDelay.Config.Basic
import GyroDelay.Decimal.Layout
import GyroDelay.Text.Hex
import GyroDelay.Toml.Reader

/-!
# Configurations in TOML

Doubles are written in plain digits with a point. A text is written in the first style that
needs no escapes: basic, literal, basic over several lines, literal over several lines;
otherwise with escapes.
-/

namespace GyroDelay.Toml

/-- The layout of doubles. -/
def doubleLayout : Decimal.Layout :=
  { Decimal.Layout.plain with whole := ".0", zero := "0.0", nan := "nan" }

/-- The length of the longest run of a character, given the length of the run that has
begun and the longest one so far. -/
def longestRun (c : Char) (current best : Nat) : List Char → Nat
  | [] => best
  | d :: rest =>
    if d = c then longestRun c (current + 1) (max best (current + 1)) rest
    else longestRun c 0 best rest

/-- Whether a character can only be written with an escape: the control characters but
tabulator and line feed. -/
def needsEscape (c : Char) : Bool :=
  c ≠ '\t' && c ≠ '\n' && (c.toNat < 0x20 || c.toNat = 0x7F)

/-- The styles of quoted texts. -/
inductive Style where
  | basic
  | literal
  | basicLines
  | literalLines
deriving Repr, DecidableEq

/-- The style for a text. -/
def styleOf (cs : List Char) : Style :=
  let doubles := longestRun '"' 0 0 cs
  let singles := longestRun '\'' 0 0 cs
  let controls := cs.any needsEscape
  let backslash := cs.contains '\\'
  let breaks := cs.contains '\n'
  if !controls && !backslash && doubles = 0 && !breaks then .basic
  else if !controls && singles = 0 && !breaks then .literal
  else if !controls && !backslash && doubles ≤ 2 then .basicLines
  else if !controls && singles ≤ 2 then .literalLines
  else if breaks then .basicLines
  else .basic

/-- A text with escapes. `lines` leaves line feeds and up to two quotes in a row as they
are; `quotes` is the number of quotes right before. -/
def escaped (lines : Bool) (quotes : Nat) : List Char → List Char
  | [] => []
  | c :: rest =>
    if c = '"' then
      if quotes < (if lines then 2 else 0) then '"' :: escaped lines (quotes + 1) rest
      else '\\' :: '"' :: escaped lines 0 rest
    else if c = '\n' && lines then '\n' :: escaped lines 0 rest
    else
      let written := match c with
        | '\x08' => ['\\', 'b']
        | '\t' => ['\\', 't']
        | '\n' => ['\\', 'n']
        | '\x0c' => ['\\', 'f']
        | '\r' => ['\\', 'r']
        | '\\' => ['\\', '\\']
        | c =>
          if c.toNat < 0x20 || c.toNat = 0x7F then '\\' :: 'u' :: Text.hex4 true c.toNat else [c]
      written ++ escaped lines 0 rest

/-- The quotes of a style over several lines, with the line break that opens a text of
several lines. -/
def opening (quotes : List Char) (cs : List Char) : List Char :=
  quotes ++ if cs.contains '\n' then ['\n'] else []

/-- A quoted text. -/
def quote (cs : List Char) : List Char :=
  match styleOf cs with
  | .basic => '"' :: escaped false 0 cs ++ ['"']
  | .literal => '\'' :: cs ++ ['\'']
  | .basicLines => opening ['"', '"', '"'] cs ++ escaped true 0 cs ++ ['"', '"', '"']
  | .literalLines => opening ['\'', '\'', '\''] cs ++ cs ++ ['\'', '\'', '\'']

/-- A line that gives a key its value. -/
def line (key value : String) : String := key ++ " = " ++ value ++ "\n"

/-- A quoted text as a string. -/
def quoted (s : String) : String := String.ofList (quote s.toList)

/-- The TOML text of a configuration. Settings that are absent are left out. -/
def renderConfig (c : Config) : String :=
  "[estimator]\n" ++
  line "accuracy" (doubleLayout.text c.estimator.accuracy) ++
  line "resample" (if c.estimator.resample then "true" else "false") ++
  line "complex_roots" (quoted c.estimator.rootPolicy.name) ++
  line "max_grid_len" (toString c.estimator.gridLimit.toNat) ++
  "\n[input]\n" ++
  line "timestamp_unit" (quoted c.unit.name) ++
  "\n[server]\n" ++
  line "host" (quoted c.server.host) ++
  line "port" (toString c.server.port.toNat) ++
  line "read_buffer_size" (toString c.server.bufferSize.toNat) ++
  (match c.server.metricsPort with
    | some port => line "metrics_port" (toString port.toNat)
    | none => "") ++
  (match c.server.saveDir with
    | some dir => line "save_dir" (quoted dir)
    | none => "") ++
  line "read_timeout_ms" (toString c.server.timeLimit.toNat)

/-- A list may be longer than the record it stands for, and a choice that is written as a
table has an empty array or an empty table behind its name. -/
def dialect : Config.Dialect where
  longLists := true
  isUnit t := match t with
    | .list [] => true
    | .record [] => true
    | _ => false

/-- The configuration that a TOML text holds. -/
def readConfig? (text : String) : Option Config :=
  (parse? text.toList).bind (Config.ofTree? dialect)

end GyroDelay.Toml

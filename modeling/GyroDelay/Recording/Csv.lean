import GyroDelay.Decimal.NumberText
import GyroDelay.Recording.Basic
import GyroDelay.Text.Blank
import GyroDelay.Text.Lines
import GyroDelay.TimeUnit

/-!
# Recordings as comma-separated text

One sample a line: three coordinates and a timestamp in a given unit. Blank lines and
lines that begin with a number sign are skipped. Lines count from one, the skipped ones
included.
-/

namespace GyroDelay.Recording

variable {α : Type} [Scalar α] [NumberText α]

/-- The finite number of a named field. -/
def readField (name : String) (field : List Char) : Except LineFault α :=
  let text := String.ofList field
  match NumberText.read? text with
  | none => .error (.notNumber name text)
  | some x => if Scalar.isFinite x then .ok x else .error (.notFinite name text)

/-- The number of a timestamp field; integers of 64 bits are read as such. -/
def readTime (field : List Char) : Except LineFault α :=
  match Decimal.readInt64? (String.ofList field) with
  | some i => .ok (Scalar.ofInt i)
  | none => readField "t" field

/-- The sample and the timestamp of a line that is neither blank nor a comment. -/
def readSample (unit : TimeUnit) (line : List Char) : Except LineFault (Vec3 α × α) :=
  match (Text.fields ',' line).map Text.trim with
  | [x, y, z, t] => do
    let x ← readField "x" x
    let y ← readField "y" y
    let z ← readField "z" z
    let t ← readTime t
    return (⟨x, y, z⟩, t * unit.factor)
  | fields => .error (.fieldCount fields.length)

/-- Whether a trimmed line holds no sample. -/
def isSkipped : List Char → Bool
  | [] => true
  | c :: _ => c = '#'

/-- The samples of the lines from number `line` on. -/
def readLines (unit : TimeUnit) (line : Nat) :
    List (List Char) → Except (Fault α) (List (Vec3 α × α))
  | [] => .ok []
  | cs :: rest =>
    let content := Text.trim cs
    if isSkipped content then readLines unit (line + 1) rest
    else
      match readSample unit content with
      | .error fault => .error (.recordingLine line fault)
      | .ok sample => (readLines unit (line + 1) rest).map (sample :: ·)

/-- The recording that a text holds. -/
def parse (unit : TimeUnit) (text : List Char) : Except (Fault α) (Recording α) :=
  (readLines unit 1 (Text.lines text)).map fun rows => ⟨rows.map (·.1), rows.map (·.2)⟩

/-- The recording that bytes hold. A byte sequence that is not text is reported at the
line where it stands. -/
def parseBytes (unit : TimeUnit) (bytes : List UInt8) : Except (Fault α) (Recording α) :=
  match Text.decode bytes with
  | .error fault => .error (.recordingLine (fault.lineFeeds + 1) (.notText fault))
  | .ok text => parse unit text

/-- The text of a timestamp: seconds as they are, other units as whole numbers. -/
def timeText (unit : TimeUnit) (t : α) : String :=
  match unit with
  | .seconds => NumberText.display t
  | unit => toString (Scalar.roundInt (t / unit.factor))

/-- The line of a sample. -/
def renderSample (unit : TimeUnit) (v : Vec3 α) (t : α) : String :=
  NumberText.display v.x ++ "," ++ NumberText.display v.y ++ "," ++
    NumberText.display v.z ++ "," ++ timeText unit t ++ "\n"

/-- The text of a recording; what one list has in excess of the other is left out. -/
def render (unit : TimeUnit) (r : Recording α) : String :=
  String.join (List.zipWith (renderSample unit) r.samples r.times)

end GyroDelay.Recording

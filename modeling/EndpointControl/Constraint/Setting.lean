import EndpointControl.Constraint.Defects
import EndpointControl.Failure
import EndpointControl.Text.Blank
import EndpointControl.Text.Numeral
import EndpointControl.Text.Utf8

/-!
# Constraint settings

Which constraint level a factory uses is a setting: look it up in the defect
table, use none, or force a number. A setting can be given as a text, from a
configuration file or from the environment, and `Setting.read` is the reader of
that small language. Padding around the text does not count; `auto` and `none`
are recognized in any mixture of ASCII case; anything else has to be a numeral,
and a numeral that is negative or does not fit a signed 64-bit word is as bad as
no numeral at all.

Whether a forced number is a level is a later question, asked by `Setting.level`
when the factory is built: the two ranges differ, and a number between them is a
setting that no factory accepts.
-/

namespace EndpointControl

/-- **How the constraint level of a factory is determined.** -/
inductive Setting where
  /-- Look the provider up in the defect table. -/
  | auto
  /-- Ask for nothing. -/
  | off
  /-- Use this number, whatever the table says. -/
  | force (level : Int)
  deriving DecidableEq, Repr

namespace Setting

/-- The ASCII letter in lower case; any other character is left alone. -/
def lowerAscii (c : Char) : Char :=
  if 'A' ≤ c ∧ c ≤ 'Z' then Char.ofNat (c.toNat + 32) else c

/-- The text spells the word, up to the case of its ASCII letters. -/
def spells (cs : List Char) (word : String) : Bool :=
  cs.map lowerAscii == word.toList

/-- The greatest number that a setting can carry. -/
def greatest : Int := 9223372036854775807

/-- **Reads the core of a setting**, padding already gone. -/
def readCore? (cs : List Char) : Option Setting :=
  if spells cs "auto" then some .auto
  else if spells cs "none" then some .off
  else
    match Text.integer? cs with
    | some n => if 0 ≤ n ∧ n ≤ greatest then some (.force n) else none
    | none => none

/-- **Reads a setting.** A text that is none is quoted as it was given, padding
included. -/
def read (s : String) : Except Failure Setting :=
  match readCore? (Text.strip s.toList) with
  | some r => .ok r
  | none => .error (.misconfigured (.unreadable s))

/-- **Reads the setting the environment holds**: nothing at all means `auto`, and
octets that are no text are refused before they are read. -/
def ofEnvironment : Option (List UInt8) → Except Failure Setting
  | none => .ok .auto
  | some octets =>
    match Text.decode octets with
    | some s => read s
    | none => .error (.misconfigured (.undecodable (Text.lossy octets)))

/-- **The level a setting gives to a provider** under a defect table. -/
def level (s : Setting) (table : DefectTable) (i : Identity) : Except Failure Level :=
  match s with
  | .auto => .ok (table.levelFor i)
  | .off => .ok .unconstrained
  | .force n =>
    match Level.ofInt? n with
    | some l => .ok l
    | none => .error (.misconfigured (.levelOutOfRange n))

@[simp] theorem ofEnvironment_none : ofEnvironment none = .ok .auto := rfl

end Setting

end EndpointControl

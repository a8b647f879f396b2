import EndpointControl.Constraint.Level
import EndpointControl.Provider

/-!
# Defect tables

A defect table lists what is known about defective providers: a rule names a
provider, may narrow itself to the versions that begin with some text, and gives
the level that such a provider needs. The rules are read in order and the first
one that applies decides, so a narrow rule belongs in front of a broad one.

A rule without a version text applies to every version of its provider, and also
where the provider states no version at all. A rule with one – even the empty
one – applies only where there is a version to compare.
-/

namespace EndpointControl

/-- **What is known about one provider**, or about a range of its versions. -/
structure Defect where
  /-- The name of the provider. -/
  name : String
  /-- How the version has to begin, if the rule is about some versions only. -/
  versionStart : Option String
  /-- The level that is needed. -/
  level : Level
  deriving DecidableEq, Repr

/-- The text `p` is how `s` begins. Texts compare by code points. -/
def beginsWith (s p : String) : Bool := p.toList.isPrefixOf s.toList

/-- **The rule is about the identity**: the names agree, and where the rule is
about some versions only, the identity states one of them. -/
def Defect.applies (d : Defect) (i : Identity) : Bool :=
  d.name == i.name &&
    match d.versionStart with
    | none => true
    | some p =>
      match i.version with
      | none => false
      | some v => beginsWith v p

/-- **A table of defects**, read from the front. -/
structure DefectTable where
  /-- The rules in the order they are read. -/
  rules : List Defect
  deriving DecidableEq, Repr

namespace DefectTable

/-- The table that knows of no defect. -/
def empty : DefectTable := ⟨[]⟩

/-- The number of rules. -/
def size (t : DefectTable) : Nat := t.rules.length

/-- The table with a rule behind the others. -/
def push (t : DefectTable) (d : Defect) : DefectTable := ⟨t.rules ++ [d]⟩

/-- **The level that the first applying rule gives**, if any applies. -/
def lookup (t : DefectTable) (i : Identity) : Option Level :=
  (t.rules.find? (·.applies i)).map (·.level)

/-- The level an identity needs: what the table knows, and nothing where the
table knows nothing. -/
def levelFor (t : DefectTable) (i : Identity) : Level :=
  (t.lookup i).getD .unconstrained

@[simp] theorem rules_push (t : DefectTable) (d : Defect) :
    (t.push d).rules = t.rules ++ [d] := rfl

@[simp] theorem lookup_empty (i : Identity) : empty.lookup i = none := rfl

end DefectTable

end EndpointControl

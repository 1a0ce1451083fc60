import SqlQuery.Error
import SqlQuery.Number.Digits
import SqlQuery.Text.Blank

/-!
# Engine versions

A server reports its version as a build tag, a dotted number and a product name, as in
`LI-V4.0.1.2692 Firebird 4.0`.

* `EngineVersion.ofBanner?` — the number after the first build tag and before the next space, and
  `EngineVersion.ofBanner` with the failure where there is none;
* `EngineVersion.ofText?` — the same for text that a person wrote, where a bare number will do;
* `EngineVersion.text` — `major.minor.patch`.
-/

namespace SqlQuery

open SqlQuery.Text SqlQuery.Number

/-- A version `major.minor.patch`, each number of 32 bits. -/
structure EngineVersion where
  major : UInt32
  minor : UInt32
  patch : UInt32
deriving DecidableEq

namespace EngineVersion

/-- Majors are compared first, then minors, then patches. -/
def compare (v w : EngineVersion) : Ordering :=
  (Ord.compare v.major w.major).then <|
    (Ord.compare v.minor w.minor).then (Ord.compare v.patch w.patch)

/-- The version as `major.minor.patch`. -/
def text (v : EngineVersion) : List Char :=
  digits v.major.toNat ++ '.' :: digits v.minor.toNat ++ '.' :: digits v.patch.toNat

/-! ### Reading -/

/-- The digits at the start of a text as a number of 32 bits; leading zeros are allowed. -/
def number? (s : List Char) : Option (UInt32 × List Char) :=
  let (ds, rest) := spanDigits s
  if ds ≠ [] ∧ natOf 10 ds < UInt32.size then some (UInt32.ofNat (natOf 10 ds), rest) else none

/-- The text after a dot. -/
def dot? : List Char → Option (List Char)
  | '.' :: rest => some rest
  | _ => none

/-- The `major.minor.patch` at the start of a text, and what follows it. -/
def triple? (s : List Char) : Option (EngineVersion × List Char) := do
  let (major, s) ← number? s
  let s ← dot? s
  let (minor, s) ← number? s
  let s ← dot? s
  let (patch, s) ← number? s
  return (⟨major, minor, patch⟩, s)

/-- The build tags: a platform, and the mark of a release. -/
def buildTags : List (List Char) :=
  ["LI-V".toList, "WI-V".toList]

/-- What stands after the earliest build tag. -/
def afterTag? : List Char → Option (List Char)
  | [] => none
  | c :: cs =>
    match buildTags.find? (·.isPrefixOf (c :: cs)) with
    | some tag => some ((c :: cs).drop tag.length)
    | none => afterTag? cs

/-- The part of a banner that holds the number: from the build tag, or from the
start if there is none, to the next space. -/
def segment (s : List Char) : List Char :=
  ((afterTag? s).getD s).takeWhile (· ≠ ' ')

/-- The version that a server's banner tells. -/
def ofBanner? (s : String) : Option EngineVersion :=
  (triple? (segment s.toList)).map (·.1)

/-- The version that a server's banner tells, or the failure that shows the banner. -/
def ofBanner (s : String) : Except Error EngineVersion :=
  match ofBanner? s with
  | some v => .ok v
  | none => .error (.versionUnparseable s)

/-- The version that a text tells: a bare number or a banner, blanks around it allowed. -/
def ofText? (s : String) : Option EngineVersion :=
  let t := trimmed s
  match triple? t.toList with
  | some (v, []) => some v
  | _ => ofBanner? t

end EngineVersion

end SqlQuery

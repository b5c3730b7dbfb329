/-!
# Faults of YAML files

Why a YAML file cannot be read.
-/

namespace EndpointAudit.Yaml

inductive Fault where
  /-- The text breaks the rules of the language, or uses a tag that has no meaning here. -/
  | malformed
  /-- An escape names a number beyond the last character. -/
  | noSuchChar
  /-- An escape names a number of more than thirty-one bits. -/
  | hugeChar
  /-- A scalar that is taken for a number is none. -/
  | badNumber
  /-- A scalar that is taken for a number has no digits. -/
  | noDigits
  /-- A number in base sixty has so many places that no double is large enough for the first. -/
  | hugeNumber
  /-- A scalar that is taken for a flag is none. -/
  | badFlag
  /-- A scalar that is taken for a moment is not spelled like one. -/
  | badMoment
  /-- A scalar is spelled like a moment that does not exist. -/
  | noSuchMoment
  /-- A mapping is given where the scalar of a moment is wanted. -/
  | mappedMoment
  /-- A mapping whose default value is wanted as a scalar is its own default value. -/
  | endlessDefault
deriving DecidableEq, Repr

end EndpointAudit.Yaml

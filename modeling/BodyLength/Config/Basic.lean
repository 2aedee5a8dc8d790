/-!
# Configurations

What a configuration file may say. Every field may be missing: an empty list or no value
then leaves the default in force.
-/

namespace BodyLength

structure Config where
  /-- Globs of the files to scan. -/
  includes : List String := []
  /-- Globs of the files not to scan. -/
  excludes : List String := []
  extensions : List String := []
  maxLines : Option UInt64 := none
  neutralColor : Option String := none
  warningColor : Option String := none
  lenientBraces : Option Bool := none
  literalAwareSignatures : Option Bool := none
  warningsOnly : Option Bool := none
  minLines : Option UInt64 := none
  top : Option UInt64 := none
deriving DecidableEq, Repr

end BodyLength

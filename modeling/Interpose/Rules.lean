import Interpose.KeyMap
import Interpose.Shadow

/-!
Rules that say which types are intercepted.

An included type and a type with a bound shadow always are. Otherwise an excluded type or package is not; and
where packages to instrument are listed, only types in one of them are.
-/

namespace Interpose

structure Rules where
  instrumentedPackages : KeySet
  excludedPackages : KeySet
  includedTypes : KeySet
  excludedTypes : KeySet
  boundShadows : KeyMap String
deriving DecidableEq

/-- Whether a type lies in a package or in a package within it. -/
def liesIn (typeId package : String) : Bool :=
  (package.toList ++ ['.']).isPrefixOf typeId.toList

/-- A package without the dots at its end. -/
def trimPackage (package : String) : String :=
  String.ofList (package.toList.reverse.dropWhile (· == '.')).reverse

namespace Rules

/-- No rules: every type is intercepted. -/
def none : Rules := ⟨KeyMap.empty, KeyMap.empty, KeyMap.empty, KeyMap.empty, KeyMap.empty⟩

def excludePackage (r : Rules) (package : String) : Rules :=
  { r with excludedPackages := r.excludedPackages.add (trimPackage package) }

def instrumentPackage (r : Rules) (package : String) : Rules :=
  { r with instrumentedPackages := r.instrumentedPackages.add (trimPackage package) }

/-- Includes a type, whatever excludes it. -/
def includeType (r : Rules) (typeId : String) : Rules :=
  { r with includedTypes := r.includedTypes.add typeId }

def excludeType (r : Rules) (typeId : String) : Rules :=
  { r with excludedTypes := r.excludedTypes.add typeId }

/-- Binds a shadow id to a real type, over any earlier binding of the id. -/
def bindShadow (r : Rules) (shadowId real : String) : Rules :=
  { r with boundShadows := r.boundShadows.insert shadowId real }

def addShadow (r : Rules) (shadow : Shadow) : Rules :=
  r.bindShadow shadow.id shadow.own.implements

def defaultExclusions : List String := ["java", "javax", "kotlin", "sun", "jdk"]

def withDefaultExclusions (r : Rules) : Rules :=
  defaultExclusions.foldl excludePackage r

def isShadowed (r : Rules) (typeId : String) : Bool :=
  r.boundShadows.values.contains typeId

def intercepts (r : Rules) (typeId : String) : Bool :=
  if r.includedTypes.contains typeId || r.isShadowed typeId then true
  else if r.excludedTypes.contains typeId then false
  else if r.excludedPackages.keys.any (liesIn typeId) then false
  else r.instrumentedPackages.isEmpty || r.instrumentedPackages.keys.any (liesIn typeId)

end Rules

end Interpose

namespace Scaffold

/-- What a run has counted. Counters are 64 bits wide and wrap around. -/
structure Summary where
  filesScanned : UInt64 := 0
  classesFound : UInt64 := 0
  classesUpdated : UInt64 := 0
  methodsAdded : UInt64 := 0
  deriving DecidableEq, Repr, Inhabited

namespace Summary

def fileScanned (s : Summary) : Summary :=
  { s with filesScanned := s.filesScanned + 1 }

def addClasses (s : Summary) (count : UInt64) : Summary :=
  { s with classesFound := s.classesFound + count }

/-- A test class was made or changed by adding methods. -/
def classUpdated (s : Summary) (methods : UInt64) : Summary :=
  { s with
    classesUpdated := s.classesUpdated + 1
    methodsAdded := s.methodsAdded + methods }

end Summary

end Scaffold

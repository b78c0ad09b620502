/-!
The settings that a batch itself looks at. They are passed down explicitly.
-/
namespace Multicall

structure BatchSettings where
  debug : Bool
  /-- Where manifests are kept; it only informs. -/
  routeDirectory : Option String
  maxEntries : Option Nat
  chunkSize : Nat
  deriving DecidableEq, Repr

namespace BatchSettings

def defaultChunkSize : Nat := 4096

def standard : BatchSettings := ⟨false, none, none, defaultChunkSize⟩

end BatchSettings
end Multicall

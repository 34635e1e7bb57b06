import LedgerGenesis.Error

/-! # Retargeting of the bridged network's difficulty

The retarget window is a positive number of whole blocks' spacings, and the factor that bounds its
measured length is positive.
-/
namespace LedgerGenesis

structure Retarget where
  maxBits : Int
  blockMaxFuture : Int
  timespan : Int
  spacing : Int
  factor : Int
  spacing_pos : 0 < spacing
  timespan_multiple : timespan % spacing = 0
  factor_pos : 0 < factor
  deriving DecidableEq

namespace Retarget

def make (maxBits blockMaxFuture timespan spacing factor : Int) : Except Error Retarget :=
  if hs : 0 < spacing then
    if ht : timespan % spacing = 0 then
      if hf : 0 < factor then
        .ok ⟨maxBits, blockMaxFuture, timespan, spacing, factor, hs, ht, hf⟩
      else .error (.genesis .factorNotPositive)
    else .error (GenesisError.windowNotMultiple timespan spacing).raised
  else .error (.genesis .spacingNotPositive)

variable (r : Retarget)

/-- Blocks in a window. -/
def interval : Int := r.timespan / r.spacing

def minTimespan : Int := r.timespan / r.factor

def maxTimespan : Int := r.timespan * r.factor

def toJson : Json :=
  .object [
    ("maxBits", .int r.maxBits),
    ("blockMaxFuture", .int r.blockMaxFuture),
    ("targetTimespanSeconds", .int r.timespan),
    ("targetSpacingSeconds", .int r.spacing),
    ("retargetingFactor", .int r.factor),
    ("retargetingInterval", .int r.interval),
    ("minTimespan", .int r.minTimespan),
    ("maxTimespan", .int r.maxTimespan)]

/-- Two weeks of ten-minute blocks. -/
def biweekly (maxBits : Int) : Retarget where
  maxBits := maxBits
  blockMaxFuture := 2 * 60 * 60
  timespan := 2 * 7 * 24 * 60 * 60
  spacing := 10 * 60
  factor := 4
  spacing_pos := by decide
  timespan_multiple := by decide
  factor_pos := by decide

def mainnet : Retarget := biweekly 486604799

/-- Signet and regtest. -/
def testnet : Retarget := biweekly 545259519

end Retarget

end LedgerGenesis

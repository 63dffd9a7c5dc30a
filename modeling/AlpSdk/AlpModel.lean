-- A parsed model package (include/alp/model.h).
namespace AlpSdk.AlpModel

def MAX_TARGETS : Nat := 8

-- With the terminator.
def STR_MAX : Nat := 32

-- A string without its terminator.
abbrev CString : Type := List UInt8

def ascii (s : String) : CString := s.toList.map fun c => c.toNat.toUInt8

-- `alp_model_target_t`
structure Target where
  backend : CString := []
  siliconRef : CString := []
  blobFormat : CString := []
  accelConfig : CString := []
  arenaBytes : UInt32 := 0
  reqSramKib : UInt32 := 0
  -- an offset into the package
  blob : Nat := 0
  blobLen : UInt32 := 0
  deriving DecidableEq

-- `alp_model_t`
structure Model where
  name : CString
  srcSha : List UInt8
  flags : UInt16
  targets : List Target
  bounded : targets.length ≤ MAX_TARGETS

end AlpSdk.AlpModel

import Mathlib.Control.Monad.Basic

namespace AlpSdk

-- The error codes of `alp_status_t`. A call that returns a status returns
-- `Except AlpError`, so `ALP_OK` is the `ok` constructor and never an error code.
inductive AlpError where
  | inval
  | notReady
  | busy
  | timeout
  | io
  | nosupport
  | nomem
  | outOfRange
  | notPresentOnThisSoc
  | notImplemented
  | version
  | noBackend
  | noFit
  | notFound
  | notProvisioned
  deriving DecidableEq, Repr

abbrev Status : Type := Except AlpError Unit

end AlpSdk

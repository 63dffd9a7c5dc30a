import AlpSdk.DrpAi.JsonParser

namespace AlpSdk.DrpAi

open Library.Json Library.Checked

def ascii (s : String) : List UInt8 := s.toList.map fun c => c.toNat.toUInt8

def NODES : List UInt8 := ascii "nodes"
def NODE_ROW_PTR : List UInt8 := ascii "node_row_ptr"
def ARG_NODES : List UInt8 := ascii "arg_nodes"
def HEADS : List UInt8 := ascii "heads"
def ATTRS : List UInt8 := ascii "attrs"
def SHAPE : List UInt8 := ascii "shape"
def NAME : List UInt8 := ascii "name"

variable {α : Type}

-- `xs[i]`.
def vecAt (xs : List α) (i : ℤ) : Parsed α :=
  if i < 0 then stray else follow xs[i.toNat]?

-- The items behind a pointer that is neither null nor to another kind of value.
def arrayOf : Option JsonValue → Parsed (List JsonValue)
  | some (.array items) => pure items
  | _ => refused

def numberOf : JsonValue → Parsed ℤ
  | .number n => pure n
  | _ => refused

-- The dimensions of a row. Each is an integer, as all numbers here, so the source's last check
-- of it holds.
def pushDims (out : List UInt16) : List JsonValue → Parsed (List UInt16)
  | [] => pure out
  | d :: dims => do
      let n ← numberOf d
      require (0 ≤ n ∧ n ≤ 65535) ()
      pushDims (out ++ [UInt16.ofNat n.toNat]) dims

def shapeFromRow (rows : List JsonValue) (row : ℤ) : Parsed (List UInt16) := do
  require (0 ≤ row ∧ row.toNat < rows.length) ()
  let dims ← arrayOf (some (← vecAt rows row))
  if dims.length > 4 then pure [] else pushDims [] dims

def pushRowPtr (out : List ℤ) : List JsonValue → Parsed (List ℤ)
  | [] => pure out
  | v :: rest => do
      let n ← numberOf v
      require (0 ≤ n) ()
      pushRowPtr (out ++ [n]) rest

-- The tables an input or an output is looked up in.
structure Tables where
  nodes : List JsonValue
  rowPtr : List ℤ
  rows : List JsonValue

def nameOf (node : JsonValue) : List UInt8 :=
  match node.find NAME with
  | some (.string s) => s
  | _ => []

def inputOf (t : Tables) (an : JsonValue) : Parsed (List UInt8 × List UInt16) := do
  let node_idx ← numberOf an
  require (0 ≤ node_idx ∧ node_idx.toNat < t.nodes.length) ()
  let next ← vecAt t.rowPtr (node_idx + 1)
  let first ← vecAt t.rowPtr node_idx
  require (next - first = 1) ()
  let node ← vecAt t.nodes node_idx
  let shape ← shapeFromRow t.rows first
  pure (nameOf node, shape)

def outputOfHead (t : Tables) (head : JsonValue) : Parsed (List UInt16) := do
  let items ← arrayOf (some head)
  require (2 ≤ items.length) ()
  let node_idx ← numberOf (← vecAt items 0)
  let out_idx ← numberOf (← vecAt items 1)
  require (0 ≤ node_idx ∧ node_idx.toNat < t.nodes.length) ()
  let next ← vecAt t.rowPtr (node_idx + 1)
  let first ← vecAt t.rowPtr node_idx
  require (0 ≤ out_idx ∧ out_idx < next - first) ()
  shapeFromRow t.rows (first + out_idx)

-- What is recovered: the inputs in `arg_nodes` order, the outputs in `heads` order.
structure DeployShapes where
  inputNames : List (List UInt8)
  inputShapes : List (List UInt16)
  outputShapes : List (List UInt16)
  deriving DecidableEq

def pushInputs (t : Tables) (out : DeployShapes) : List JsonValue → Parsed DeployShapes
  | [] => pure out
  | an :: args => do
      let (name, shape) ← inputOf t an
      pushInputs t { out with
        inputNames := out.inputNames ++ [name], inputShapes := out.inputShapes ++ [shape] } args

def pushOutputs (t : Tables) (out : DeployShapes) : List JsonValue → Parsed DeployShapes
  | [] => pure out
  | head :: heads => do
      let shape ← outputOfHead t head
      pushOutputs t { out with outputShapes := out.outputShapes ++ [shape] } heads

def resolve (root : JsonValue) : Parsed DeployShapes := do
  let nodes ← arrayOf (root.find NODES)
  let rowPtr ← arrayOf (root.find NODE_ROW_PTR)
  let args ← arrayOf (root.find ARG_NODES)
  let heads ← arrayOf (root.find HEADS)
  match root.find ATTRS with
  | none => refused
  | some attrs =>
      let shape ← arrayOf (attrs.find SHAPE)
      require (shape.length = 2) ()
      let rows ← arrayOf (some (← vecAt shape 1))
      require (rowPtr.length = nodes.length + 1) ()
      let rowPtr ← pushRowPtr [] rowPtr
      let out ← pushInputs ⟨nodes, rowPtr, rows⟩ ⟨[], [], []⟩ args
      pushOutputs ⟨nodes, rowPtr, rows⟩ out heads

-- `_drpai_parse_deploy_shapes`, from what `_read_file` read: none where it returned false. It
-- returns true where this has a result.
def parseDeployShapes (strtod : Strtod) (file : Option (List UInt8)) : Parsed DeployShapes :=
  match file with
  | none => refused
  | some text => do
      let (root, _) ← parse strtod text
      resolve root

-- The entry a name matches, by the inner loop of `correlate_input_shapes`.
def matched (ds : DeployShapes) (name : List UInt8) : Option ℕ :=
  ds.inputNames.findIdx? fun n => n = name

-- A turn of the loop over the names, on the shapes and `any_matched`.
def matchInput (names : List (List UInt8)) (ds : DeployShapes) (state : List (List UInt16) × Bool)
    (i : ℕ) : List (List UInt16) × Bool :=
  match matched ds (names.getD i []) with
  | some j => (state.1.set i (ds.inputShapes.getD j []), true)
  | none => state

def correlateInputShapes (names : List (List UInt8)) (ds : DeployShapes)
    (outShapes : List (List UInt16)) : List (List UInt16) :=
  let (outShapes, anyMatched) := (List.range names.length).foldl (matchInput names ds) (outShapes, false)
  if !anyMatched && ds.inputShapes.length = names.length then
    (List.range names.length).foldl (fun out i => out.set i (ds.inputShapes.getD i [])) outShapes
  else outShapes

end AlpSdk.DrpAi

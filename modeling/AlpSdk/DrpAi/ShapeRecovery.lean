import AlpSdk.DrpAi.DeployShapes
import AlpSdk.DrpAi.JsonReading

namespace AlpSdk.DrpAi

open Library.Json Library.Checked

variable {α : Type} {strtod : Strtod} {root : JsonValue} {t : Tables} {args heads : List JsonValue}
  {out : DeployShapes}

section Specification

-- The shape a row of the table stands for: its dimensions, none where they are more than four.
def RowShape (rows : List JsonValue) (row : ℕ) (shape : List UInt16) : Prop :=
  ∃ dims, rows[row]? = some (.array dims) ∧
    (4 < dims.length ∧ shape = [] ∨ dims.length ≤ 4 ∧ dims = shape.map fun d => .number d.toNat)

-- A row that stands for a shape: where it has no more than four dimensions, each fits 16 bits.
def RowFits (rows : List JsonValue) (row : ℕ) : Prop :=
  ∃ dims, rows[row]? = some (.array dims) ∧
    (dims.length ≤ 4 → ∀ d ∈ dims, ∃ n : ℕ, n ≤ 65535 ∧ d = .number n)

-- An entry of `arg_nodes`: a node with a single output, and the row of it.
def ArgRow (t : Tables) (an node : JsonValue) (row : ℕ) : Prop :=
  ∃ n : ℕ, an = .number n ∧ t.nodes[n]? = some node ∧ t.rowPtr[n]? = some (row : ℤ) ∧
    t.rowPtr[n + 1]? = some (row + 1 : ℤ)

-- An entry of `heads`: a node, one of its output slots, and the row of that.
def HeadRow (t : Tables) (head : JsonValue) (row : ℕ) : Prop :=
  ∃ (n slot first next : ℕ) (more : List JsonValue),
    head = .array (.number n :: .number slot :: more) ∧ n < t.nodes.length ∧
      t.rowPtr[n]? = some (first : ℤ) ∧ t.rowPtr[n + 1]? = some (next : ℤ) ∧ first + slot < next ∧
      row = first + slot

-- A TVM graph: its tables, and what its `arg_nodes` and its `heads` list.
structure Layout (root : JsonValue) (t : Tables) (args heads : List JsonValue) : Prop where
  nodes : root.find NODES = some (.array t.nodes)
  rowPtr : root.find NODE_ROW_PTR = some (.array (t.rowPtr.map .number))
  args : root.find ARG_NODES = some (.array args)
  heads : root.find HEADS = some (.array heads)
  rows : ∃ attrs tag, root.find ATTRS = some attrs ∧
    attrs.find SHAPE = some (.array [tag, .array t.rows])
  counts : t.rowPtr.length = t.nodes.length + 1
  starts : ∀ p ∈ t.rowPtr, 0 ≤ p

structure WellFormed (root : JsonValue) (t : Tables) (args heads : List JsonValue) : Prop where
  layout : Layout root t args heads
  inputs : ∀ an ∈ args, ∃ node row, ArgRow t an node row ∧ RowFits t.rows row
  outputs : ∀ head ∈ heads, ∃ row, HeadRow t head row ∧ RowFits t.rows row

-- The names and shapes of the graph, in the order of its `arg_nodes` and its `heads`.
def Recovered (root : JsonValue) (out : DeployShapes) : Prop :=
  ∃ t args heads, Layout root t args heads ∧
    List.Forall₂ (fun an name => ∃ node row, ArgRow t an node row ∧ name = nameOf node)
      args out.inputNames ∧
    List.Forall₂ (fun an shape => ∃ node row, ArgRow t an node row ∧ RowShape t.rows row shape)
      args out.inputShapes ∧
    List.Forall₂ (fun head shape => ∃ row, HeadRow t head row ∧ RowShape t.rows row shape)
      heads out.outputShapes

end Specification

section Soundness

theorem vecAt_nat (xs : List α) (i : ℕ) : vecAt xs i = follow xs[i]? := by
  unfold vecAt
  rw [if_neg (by omega), Int.toNat_natCast]

theorem vecAt_sound {xs : List α} {i : ℕ} (h : i < xs.length) :
    Sound (vecAt xs i) fun x => xs[i]? = some x := by
  rw [vecAt_nat, List.getElem?_eq_getElem h]
  exact sound_pure rfl

theorem numberOf_sound (v : JsonValue) : Sound (numberOf v) fun n => v = .number n := by
  cases v with
  | number n => exact sound_pure rfl
  | _ => exact sound_fail ()

theorem arrayOf_sound (v : Option JsonValue) : Sound (arrayOf v) fun items => v = some (.array items) := by
  cases v with
  | none => exact sound_fail ()
  | some v =>
      cases v with
      | array items => exact sound_pure rfl
      | _ => exact sound_fail ()

theorem pushDims_sound (dims : List JsonValue) (shape : List UInt16) :
    Sound (pushDims shape dims) fun shape' =>
      ∃ more, shape' = shape ++ more ∧ dims = more.map fun d => Value.number d.toNat := by
  induction dims generalizing shape with
  | nil => exact sound_pure ⟨[], by simp⟩
  | cons d dims ih =>
      rw [pushDims]
      apply sound_seq (numberOf_sound d)
      rintro n rfl
      apply sound_require
      rintro ⟨hnonneg, hsmall⟩
      apply sound_mono (ih (shape ++ [UInt16.ofNat n.toNat]))
      rintro shape' ⟨more, rfl, rfl⟩
      refine ⟨UInt16.ofNat n.toNat :: more, by simp, ?_⟩
      have hfits : n.toNat < 2 ^ 16 := by omega
      have hdim : ((UInt16.ofNat n.toNat).toNat : ℤ) = n := by
        rw [UInt16.toNat_ofNat_of_lt' hfits]
        omega
      rw [List.map_cons, hdim]

theorem shapeFromRow_sound (rows : List JsonValue) (row : ℕ) :
    Sound (shapeFromRow rows row) (RowShape rows row) := by
  unfold shapeFromRow
  apply sound_require
  rintro ⟨-, hrow⟩
  rw [Int.toNat_natCast] at hrow
  apply sound_seq (vecAt_sound hrow)
  intro v hv
  apply sound_seq (arrayOf_sound (some v))
  intro dims hdims
  rw [hdims] at hv
  by_cases hrank : dims.length > 4
  · rw [if_pos hrank]
    exact sound_pure ⟨dims, hv, Or.inl ⟨hrank, rfl⟩⟩
  · rw [if_neg hrank]
    apply sound_mono (pushDims_sound dims [])
    rintro shape ⟨more, rfl, hmore⟩
    exact ⟨dims, hv, Or.inr ⟨by omega, by simpa using hmore⟩⟩

theorem pushRowPtr_sound (entries : List JsonValue) (rowPtr : List ℤ) :
    Sound (pushRowPtr rowPtr entries) fun rowPtr' => ∃ more, rowPtr' = rowPtr ++ more ∧
      entries = more.map Value.number ∧ ∀ p ∈ more, 0 ≤ p := by
  induction entries generalizing rowPtr with
  | nil => exact sound_pure ⟨[], by simp⟩
  | cons v entries ih =>
      rw [pushRowPtr]
      apply sound_seq (numberOf_sound v)
      rintro n rfl
      apply sound_require
      intro hnonneg
      apply sound_mono (ih (rowPtr ++ [n]))
      rintro rowPtr' ⟨more, rfl, rfl, hmore⟩
      exact ⟨n :: more, by simp, by simp, by simpa [hnonneg] using hmore⟩

-- The two entries of the row pointer a node of the table has.
theorem nodeRows_sound (hcounts : t.rowPtr.length = t.nodes.length + 1)
    (hstarts : ∀ p ∈ t.rowPtr, 0 ≤ p) {n : ℕ} (h : n < t.nodes.length) {f : ℤ → ℤ → Parsed α}
    {Q : α → Prop} (hf : ∀ first next : ℕ, t.rowPtr[n]? = some (first : ℤ) →
      t.rowPtr[n + 1]? = some (next : ℤ) → Sound (f next first) Q) :
    Sound (do
      let next ← vecAt t.rowPtr (n + 1)
      let first ← vecAt t.rowPtr n
      f next first) Q := by
  apply sound_seq (vecAt_sound (show n + 1 < t.rowPtr.length by omega))
  intro next hnext
  apply sound_seq (vecAt_sound (show n < t.rowPtr.length by omega))
  intro first hfirst
  have hnext' := hstarts next (List.mem_of_getElem? hnext)
  have hfirst' := hstarts first (List.mem_of_getElem? hfirst)
  obtain ⟨next, rfl⟩ := Int.eq_ofNat_of_zero_le hnext'
  obtain ⟨first, rfl⟩ := Int.eq_ofNat_of_zero_le hfirst'
  exact hf first next hfirst hnext

theorem inputOf_sound (hcounts : t.rowPtr.length = t.nodes.length + 1)
    (hstarts : ∀ p ∈ t.rowPtr, 0 ≤ p) (an : JsonValue) :
    Sound (inputOf t an) fun input => ∃ node row, ArgRow t an node row ∧ input.1 = nameOf node ∧
      RowShape t.rows row input.2 := by
  unfold inputOf
  apply sound_seq (numberOf_sound an)
  rintro n rfl
  apply sound_require
  rintro ⟨hnonneg, hn⟩
  obtain ⟨n, rfl⟩ := Int.eq_ofNat_of_zero_le hnonneg
  rw [Int.toNat_natCast] at hn
  apply nodeRows_sound hcounts hstarts hn
  intro first next hfirst hnext
  apply sound_require
  intro hone
  have hnext' : (next : ℤ) = first + 1 := by omega
  rw [hnext'] at hnext
  apply sound_seq (vecAt_sound hn)
  intro node hnode
  apply sound_seq (shapeFromRow_sound t.rows first)
  intro shape hshape
  exact sound_pure ⟨node, first, ⟨n, rfl, hnode, hfirst, hnext⟩, rfl, hshape⟩

theorem outputOfHead_sound (hcounts : t.rowPtr.length = t.nodes.length + 1)
    (hstarts : ∀ p ∈ t.rowPtr, 0 ≤ p) (head : JsonValue) :
    Sound (outputOfHead t head) fun shape => ∃ row, HeadRow t head row ∧ RowShape t.rows row shape := by
  unfold outputOfHead
  apply sound_seq (arrayOf_sound (some head))
  intro items hitems
  obtain rfl := Option.some.inj hitems
  apply sound_require
  intro htwo
  match items with
  | node :: slot :: more =>
      apply sound_seq (vecAt_sound (i := 0) (by simp))
      intro node' hnode'
      obtain rfl : node = node' := by simpa using hnode'
      apply sound_seq (numberOf_sound node)
      rintro n rfl
      apply sound_seq (vecAt_sound (i := 1) (by simp))
      intro slot' hslot'
      obtain rfl : slot = slot' := by simpa using hslot'
      apply sound_seq (numberOf_sound slot)
      rintro s rfl
      apply sound_require
      rintro ⟨hnonneg, hn⟩
      obtain ⟨n, rfl⟩ := Int.eq_ofNat_of_zero_le hnonneg
      rw [Int.toNat_natCast] at hn
      apply nodeRows_sound hcounts hstarts hn
      intro first next hfirst hnext
      apply sound_require
      rintro ⟨hslot, hsmall⟩
      obtain ⟨s, rfl⟩ := Int.eq_ofNat_of_zero_le hslot
      apply sound_mono (shapeFromRow_sound t.rows (first + s))
      intro shape hshape
      exact ⟨first + s, ⟨n, s, first, next, more, rfl, hn, hfirst, hnext, by omega, rfl⟩, hshape⟩

theorem pushInputs_sound (hcounts : t.rowPtr.length = t.nodes.length + 1)
    (hstarts : ∀ p ∈ t.rowPtr, 0 ≤ p) (args : List JsonValue) (out : DeployShapes) :
    Sound (pushInputs t out args) fun out' => ∃ names shapes,
      out' = ⟨out.inputNames ++ names, out.inputShapes ++ shapes, out.outputShapes⟩ ∧
      List.Forall₂ (fun an name => ∃ node row, ArgRow t an node row ∧ name = nameOf node) args names ∧
      List.Forall₂ (fun an shape => ∃ node row, ArgRow t an node row ∧ RowShape t.rows row shape)
        args shapes := by
  induction args generalizing out with
  | nil => exact sound_pure ⟨[], [], by simp⟩
  | cons an args ih =>
      rw [pushInputs]
      apply sound_seq (inputOf_sound hcounts hstarts an)
      rintro ⟨name, shape⟩ ⟨node, row, hrow, hname, hshape⟩
      apply sound_mono (ih _)
      rintro out' ⟨names, shapes, rfl, hnames, hshapes⟩
      exact ⟨name :: names, shape :: shapes, by simp, .cons ⟨node, row, hrow, hname⟩ hnames,
        .cons ⟨node, row, hrow, hshape⟩ hshapes⟩

theorem pushOutputs_sound (hcounts : t.rowPtr.length = t.nodes.length + 1)
    (hstarts : ∀ p ∈ t.rowPtr, 0 ≤ p) (heads : List JsonValue) (out : DeployShapes) :
    Sound (pushOutputs t out heads) fun out' => ∃ shapes,
      out' = { out with outputShapes := out.outputShapes ++ shapes } ∧
      List.Forall₂ (fun head shape => ∃ row, HeadRow t head row ∧ RowShape t.rows row shape)
        heads shapes := by
  induction heads generalizing out with
  | nil => exact sound_pure ⟨[], by simp⟩
  | cons head heads ih =>
      rw [pushOutputs]
      apply sound_seq (outputOfHead_sound hcounts hstarts head)
      intro shape hshape
      apply sound_mono (ih _)
      rintro out' ⟨shapes, rfl, hshapes⟩
      exact ⟨shape :: shapes, by simp, .cons hshape hshapes⟩

theorem resolve_sound (root : JsonValue) : Sound (resolve root) (Recovered root) := by
  unfold resolve
  apply sound_seq (arrayOf_sound (root.find NODES))
  intro nodes hnodes
  apply sound_seq (arrayOf_sound (root.find NODE_ROW_PTR))
  intro entries hentries
  apply sound_seq (arrayOf_sound (root.find ARG_NODES))
  intro args hargs
  apply sound_seq (arrayOf_sound (root.find HEADS))
  intro heads hheads
  split
  · exact sound_fail ()
  · rename_i attrs hattrs
    apply sound_seq (arrayOf_sound (attrs.find SHAPE))
    intro shape hshape
    apply sound_require
    intro htwo
    match shape with
    | [tag, table] =>
        apply sound_seq (vecAt_sound (i := 1) (by simp))
        intro table' htable'
        obtain rfl : table = table' := by simpa using htable'
        apply sound_seq (arrayOf_sound (some table))
        intro rows hrows
        obtain rfl := Option.some.inj hrows
        apply sound_require
        intro hcounts
        apply sound_seq (pushRowPtr_sound entries [])
        rintro rowPtr ⟨_, rfl, rfl, hstarts⟩
        rw [List.length_map] at hcounts
        have hlayout : Layout root ⟨nodes, rowPtr, rows⟩ args heads :=
          ⟨hnodes, hentries, hargs, hheads, ⟨attrs, tag, hattrs, hshape⟩, hcounts, hstarts⟩
        apply sound_seq (pushInputs_sound hlayout.counts hlayout.starts args _)
        rintro out ⟨names, shapes, rfl, hnames, hshapes⟩
        apply sound_mono (pushOutputs_sound hlayout.counts hlayout.starts heads _)
        rintro out ⟨outputs, rfl, houtputs⟩
        exact ⟨_, args, heads, hlayout, hnames, hshapes, houtputs⟩

end Soundness

section Completeness

theorem require_pos {c : Prop} [Decidable c] (h : c) : (require c () : Parsed Unit) = pure () := if_pos h

theorem vecAt_found {xs : List α} {i : ℕ} {x : α} (h : xs[i]? = some x) : vecAt xs i = pure x := by
  rw [vecAt_nat, h]
  rfl

theorem pushDims_map (shape more : List UInt16) :
    pushDims shape (more.map fun d => .number d.toNat) = pure (shape ++ more) := by
  induction more generalizing shape with
  | nil => simp [pushDims]
  | cons d more ih =>
      have hfits : d.toNat < 2 ^ 16 := d.toNat_lt
      rw [List.map_cons, pushDims, numberOf, pure_bind, require_pos (by omega), pure_bind,
        Int.toNat_natCast, UInt16.ofNat_toNat, ih]
      simp

theorem shapeFromRow_found {rows : List JsonValue} {row : ℕ} {shape : List UInt16}
    (h : RowShape rows row shape) : shapeFromRow rows row = pure shape := by
  obtain ⟨dims, hrow, hshape⟩ := h
  have hlt : row < rows.length := (List.getElem?_eq_some_iff.mp hrow).1
  rw [shapeFromRow, require_pos (by rw [Int.toNat_natCast]; omega), pure_bind, vecAt_found hrow,
    pure_bind, arrayOf, pure_bind]
  rcases hshape with ⟨hrank, rfl⟩ | ⟨hrank, rfl⟩
  · rw [if_pos hrank]
  · rw [if_neg (by omega), pushDims_map]
    rfl

theorem pushRowPtr_map (rowPtr more : List ℤ) (h : ∀ p ∈ more, 0 ≤ p) :
    pushRowPtr rowPtr (more.map .number) = pure (rowPtr ++ more) := by
  induction more generalizing rowPtr with
  | nil => simp [pushRowPtr]
  | cons p more ih =>
      rw [List.map_cons, pushRowPtr, numberOf, pure_bind, require_pos (h p (by simp)), pure_bind,
        ih _ fun q hq => h q (by simp [hq])]
      simp

theorem ArgRow.unique {an node node' : JsonValue} {row row' : ℕ} (h : ArgRow t an node row)
    (h' : ArgRow t an node' row') : node = node' := by
  obtain ⟨n, rfl, hnode, -, -⟩ := h
  obtain ⟨n', hn, hnode', -, -⟩ := h'
  obtain rfl : n = n' := by
    injection hn with hn
    omega
  exact Option.some.inj (hnode.symm.trans hnode')

theorem inputOf_found {an node : JsonValue} {row : ℕ} {shape : List UInt16} (hrow : ArgRow t an node row)
    (hshape : RowShape t.rows row shape) : inputOf t an = pure (nameOf node, shape) := by
  obtain ⟨n, rfl, hnode, hfirst, hnext⟩ := hrow
  have hlt : n < t.nodes.length := (List.getElem?_eq_some_iff.mp hnode).1
  have hnext' : vecAt t.rowPtr (n + 1 : ℤ) = pure (row + 1 : ℤ) := vecAt_found (i := n + 1) hnext
  rw [inputOf, numberOf, pure_bind, require_pos (by rw [Int.toNat_natCast]; omega), pure_bind, hnext',
    pure_bind, vecAt_found hfirst, pure_bind, require_pos (by omega), pure_bind, vecAt_found hnode,
    pure_bind, shapeFromRow_found hshape]
  rfl

theorem outputOfHead_found {head : JsonValue} {row : ℕ} {shape : List UInt16}
    (hrow : HeadRow t head row) (hshape : RowShape t.rows row shape) :
    outputOfHead t head = pure shape := by
  obtain ⟨n, slot, first, next, more, rfl, hlt, hfirst, hnext, hslot, rfl⟩ := hrow
  have hnext' : vecAt t.rowPtr (n + 1 : ℤ) = pure (next : ℤ) := vecAt_found (i := n + 1) hnext
  have hnode : vecAt (Value.number n :: .number slot :: more) 0 = pure (.number n) :=
    vecAt_found (i := 0) rfl
  have houtput : vecAt (Value.number n :: .number slot :: more) 1 = pure (.number slot) :=
    vecAt_found (i := 1) rfl
  rw [outputOfHead, arrayOf, pure_bind, require_pos (by simp), pure_bind, hnode, pure_bind, numberOf,
    pure_bind, houtput, pure_bind, numberOf, pure_bind, require_pos (by rw [Int.toNat_natCast]; omega),
    pure_bind, hnext', pure_bind, vecAt_found hfirst, pure_bind, require_pos (by omega), pure_bind]
  exact shapeFromRow_found hshape

theorem pushInputs_found {names : List (List UInt8)} {shapes : List (List UInt16)}
    (hnames : List.Forall₂ (fun an name => ∃ node row, ArgRow t an node row ∧ name = nameOf node)
      args names)
    (hshapes : List.Forall₂ (fun an shape => ∃ node row, ArgRow t an node row ∧
      RowShape t.rows row shape) args shapes) (out : DeployShapes) :
    pushInputs t out args =
      pure ⟨out.inputNames ++ names, out.inputShapes ++ shapes, out.outputShapes⟩ := by
  induction hnames generalizing shapes out with
  | nil =>
      cases hshapes
      simp [pushInputs]
  | @cons an name args names hname hnames ih =>
      cases hshapes with
      | @cons _ shape _ shapes hshape hshapes =>
          obtain ⟨node, row, hrow, rfl⟩ := hname
          obtain ⟨node', row', hrow', hshape⟩ := hshape
          obtain rfl := hrow.unique hrow'
          rw [pushInputs, inputOf_found hrow' hshape, pure_bind]
          simp only
          rw [ih hshapes]
          simp

theorem pushOutputs_found {shapes : List (List UInt16)}
    (hshapes : List.Forall₂ (fun head shape => ∃ row, HeadRow t head row ∧ RowShape t.rows row shape)
      heads shapes) (out : DeployShapes) :
    pushOutputs t out heads = pure { out with outputShapes := out.outputShapes ++ shapes } := by
  induction hshapes generalizing out with
  | nil => simp [pushOutputs]
  | cons hshape _ ih =>
      obtain ⟨row, hrow, hshape⟩ := hshape
      rw [pushOutputs, outputOfHead_found hrow hshape, pure_bind, ih]
      simp

theorem resolve_found (h : Recovered root out) : resolve root = pure out := by
  obtain ⟨t, args, heads, hlayout, hnames, hshapes, houtputs⟩ := h
  obtain ⟨attrs, tag, hattrs, hshape⟩ := hlayout.rows
  have htable : vecAt [tag, .array t.rows] 1 = pure (.array t.rows) := vecAt_found (i := 1) rfl
  rw [resolve, hlayout.nodes, arrayOf, pure_bind, hlayout.rowPtr, arrayOf, pure_bind, hlayout.args,
    arrayOf, pure_bind, hlayout.heads, arrayOf, pure_bind, hattrs]
  simp only
  rw [hshape, arrayOf, pure_bind, require_pos (by rfl), pure_bind, htable, pure_bind, arrayOf,
    pure_bind, require_pos (by rw [List.length_map]; exact hlayout.counts), pure_bind,
    pushRowPtr_map _ _ hlayout.starts, pure_bind, List.nil_append, pushInputs_found hnames hshapes,
    pure_bind, pushOutputs_found houtputs]
  rfl

theorem recovered_iff : resolve root = pure out ↔ Recovered root out := by
  constructor
  · intro h
    have hsound := resolve_sound root
    rw [h] at hsound
    exact hsound
  · exact resolve_found

theorem RowFits.shape {rows : List JsonValue} {row : ℕ} (h : RowFits rows row) :
    ∃ shape, RowShape rows row shape := by
  obtain ⟨dims, hrow, hfits⟩ := h
  by_cases hrank : 4 < dims.length
  · exact ⟨[], dims, hrow, Or.inl ⟨hrank, rfl⟩⟩
  · have hshape : ∃ shape : List UInt16, dims = shape.map fun d => .number d.toNat := by
      have hdims := hfits (by omega)
      clear hrow hfits hrank
      induction dims with
      | nil => exact ⟨[], rfl⟩
      | cons d dims ih =>
          obtain ⟨n, hn, rfl⟩ := hdims d (by simp)
          obtain ⟨shape, rfl⟩ := ih fun d hd => hdims d (by simp [hd])
          refine ⟨UInt16.ofNat n :: shape, ?_⟩
          rw [List.map_cons, UInt16.toNat_ofNat_of_lt' (show n < 2 ^ 16 by omega)]
    obtain ⟨shape, hshape⟩ := hshape
    exact ⟨shape, dims, hrow, Or.inr ⟨by omega, hshape⟩⟩

theorem forall₂_choose {β : Type} {R : α → β → Prop} {xs : List α} (h : ∀ x ∈ xs, ∃ y, R x y) :
    ∃ ys, List.Forall₂ R xs ys := by
  induction xs with
  | nil => exact ⟨[], .nil⟩
  | cons x xs ih =>
      obtain ⟨y, hy⟩ := h x (by simp)
      obtain ⟨ys, hys⟩ := ih fun x hx => h x (by simp [hx])
      exact ⟨y :: ys, .cons hy hys⟩

theorem WellFormed.recovered (h : WellFormed root t args heads) : ∃ out, Recovered root out := by
  obtain ⟨names, hnames⟩ := forall₂_choose
    (R := fun an name => ∃ node row, ArgRow t an node row ∧ name = nameOf node) (by
      intro an han
      obtain ⟨node, row, hrow, -⟩ := h.inputs an han
      exact ⟨_, node, row, hrow, rfl⟩)
  obtain ⟨shapes, hshapes⟩ := forall₂_choose
    (R := fun an shape => ∃ node row, ArgRow t an node row ∧ RowShape t.rows row shape) (by
      intro an han
      obtain ⟨node, row, hrow, hfits⟩ := h.inputs an han
      obtain ⟨shape, hshape⟩ := hfits.shape
      exact ⟨shape, node, row, hrow, hshape⟩)
  obtain ⟨outputs, houtputs⟩ := forall₂_choose
    (R := fun head shape => ∃ row, HeadRow t head row ∧ RowShape t.rows row shape) (by
      intro head hhead
      obtain ⟨row, hrow, hfits⟩ := h.outputs head hhead
      obtain ⟨shape, hshape⟩ := hfits.shape
      exact ⟨shape, row, hrow, hshape⟩)
  exact ⟨⟨names, shapes, outputs⟩, t, args, heads, h.layout, hnames, hshapes, houtputs⟩

end Completeness

section Reading

variable {named : List UInt8 → Prop}

-- The values the parser reads in place of those of the text.

theorem agree_find {members members' : List (List UInt8 × JsonValue)}
    (h : List.Forall₂ (AgreeMember named) members members') (key : List UInt8) :
    Option.Rel (fun v v' => Agree named v v' ∧ (named key → ∀ s, v = .string s → v' = .string s))
      ((Value.object members).find key) ((Value.object members').find key) := by
  induction h with
  | nil => exact .none
  | cons hmember _ ih =>
      cases hmember with
      | @member k v v' hv hnamed =>
          by_cases hk : k = key
          · subst hk
            simp only [Value.find, List.find?_cons, decide_true, Option.map_some]
            exact .some ⟨hv, hnamed⟩
          · simpa only [Value.find, List.find?_cons, hk, decide_false] using ih

theorem Agree.find {v v' : JsonValue} (h : Agree named v v') (key : List UInt8) :
    Option.Rel (fun v v' => Agree named v v' ∧ (named key → ∀ s, v = .string s → v' = .string s))
      (v.find key) (v'.find key) := by
  cases h with
  | object h => exact agree_find h key
  | _ => exact .none

theorem Agree.found {v v' w : JsonValue} (h : Agree named v v') {key : List UInt8}
    (hw : v.find key = some w) : ∃ w', v'.find key = some w' ∧ Agree named w w' := by
  have hfind := h.find key
  rw [hw] at hfind
  cases hv' : v'.find key with
  | none =>
      rw [hv'] at hfind
      cases hfind
  | some w' =>
      rw [hv'] at hfind
      cases hfind with
      | some hagree => exact ⟨w', rfl, hagree.1⟩

theorem Agree.foundArray {v v' : JsonValue} (h : Agree named v v') {key : List UInt8}
    {items : List JsonValue} (hitems : v.find key = some (.array items)) :
    ∃ items', v'.find key = some (.array items') ∧ List.Forall₂ (Agree named) items items' := by
  obtain ⟨w', hw', hagree⟩ := h.found hitems
  cases hagree with
  | array hagree => exact ⟨_, hw', hagree⟩

theorem agree_numbers {ns : List ℤ} {items : List JsonValue}
    (h : List.Forall₂ (Agree named) (ns.map .number) items) : items = ns.map .number := by
  induction ns generalizing items with
  | nil =>
      cases h
      rfl
  | cons n ns ih =>
      cases h with
      | cons hn h =>
          cases hn
          rw [ih h]
          rfl

theorem agree_getElem {items items' : List JsonValue} (h : List.Forall₂ (Agree named) items items')
    {i : ℕ} {v : JsonValue} (hv : items[i]? = some v) : ∃ v', items'[i]? = some v' ∧ Agree named v v' := by
  induction h generalizing i with
  | nil => simp at hv
  | cons hhead _ ih =>
      cases i with
      | zero =>
          obtain rfl := Option.some.inj hv
          exact ⟨_, rfl, hhead⟩
      | succ i => exact ih hv

theorem nameOf_agree {v v' : JsonValue} (h : Agree (· = NAME) v v') : nameOf v' = nameOf v := by
  unfold nameOf
  cases hname : v.find NAME with
  | none =>
      have hfind := h.find NAME
      rw [hname] at hfind
      cases hname' : v'.find NAME with
      | none => rfl
      | some w' =>
          rw [hname'] at hfind
          cases hfind
  | some w =>
      have hfind := h.find NAME
      rw [hname] at hfind
      cases hname' : v'.find NAME with
      | none =>
          rw [hname'] at hfind
          cases hfind
      | some w' =>
          rw [hname'] at hfind
          cases hfind with
          | some hagree =>
              obtain ⟨hagree, hstring⟩ := hagree
              cases hagree with
              | string s s' => rw [hstring rfl s rfl]
              | _ => rfl

theorem rowShape_agree {rows rows' : List JsonValue} (h : List.Forall₂ (Agree named) rows rows') {row : ℕ}
    {shape : List UInt16} (hshape : RowShape rows row shape) : RowShape rows' row shape := by
  obtain ⟨dims, hrow, hshape⟩ := hshape
  obtain ⟨v', hv', hagree⟩ := agree_getElem h hrow
  cases hagree with
  | @array _ dims' hdims =>
      refine ⟨dims', hv', ?_⟩
      rcases hshape with ⟨hrank, hempty⟩ | ⟨hrank, rfl⟩
      · exact Or.inl ⟨by rwa [← hdims.length_eq], hempty⟩
      · have hdims' := hdims.length_eq
        have hnumbers : dims' = (shape.map fun d => (d.toNat : ℤ)).map .number :=
          agree_numbers (by simpa [List.map_map, Function.comp_def] using hdims)
        exact Or.inr ⟨by omega, by simpa [List.map_map, Function.comp_def] using hnumbers⟩

theorem forall₂_agree {β : Type} {P P' : JsonValue → β → Prop} {items items' : List JsonValue}
    {ys : List β} (h : List.Forall₂ (Agree named) items items') (hP : List.Forall₂ P items ys)
    (hstep : ∀ v v' y, Agree named v v' → P v y → P' v' y) : List.Forall₂ P' items' ys := by
  induction h generalizing ys with
  | nil =>
      cases hP
      exact .nil
  | cons hv _ ih =>
      cases hP with
      | cons hy hP => exact .cons (hstep _ _ _ hv hy) (ih hP)

theorem argRow_agree (t' : Tables) (hnodes : List.Forall₂ (Agree named) t.nodes t'.nodes)
    (hrowPtr : t'.rowPtr = t.rowPtr) {an an' node : JsonValue} {row : ℕ} (han : Agree named an an')
    (h : ArgRow t an node row) : ∃ node', ArgRow t' an' node' row ∧ Agree named node node' := by
  obtain ⟨n, rfl, hnode, hfirst, hnext⟩ := h
  obtain ⟨node', hnode', hagree⟩ := agree_getElem hnodes hnode
  cases han
  exact ⟨node', ⟨n, rfl, hnode', by rwa [hrowPtr], by rwa [hrowPtr]⟩, hagree⟩

theorem headRow_agree (t' : Tables) (hnodes : List.Forall₂ (Agree named) t.nodes t'.nodes)
    (hrowPtr : t'.rowPtr = t.rowPtr) {head head' : JsonValue} {row : ℕ} (hhead : Agree named head head')
    (h : HeadRow t head row) : HeadRow t' head' row := by
  obtain ⟨n, slot, first, next, more, rfl, hn, hfirst, hnext, hslot, hrow⟩ := h
  cases hhead with
  | array hitems =>
      cases hitems with
      | cons hnumber hitems =>
          cases hnumber
          cases hitems with
          | cons hnumber hmore =>
              cases hnumber
              exact ⟨n, slot, first, next, _, rfl, by rwa [← hnodes.length_eq], by rwa [hrowPtr],
                by rwa [hrowPtr], hslot, hrow⟩

theorem recovered_agree {root' : JsonValue} (h : Agree (· = NAME) root root') (hout : Recovered root out) :
    Recovered root' out := by
  obtain ⟨t, args, heads, hlayout, hnames, hshapes, houtputs⟩ := hout
  obtain ⟨nodes', hnodes', hnodes⟩ := h.foundArray hlayout.nodes
  obtain ⟨entries', hentries', hentries⟩ := h.foundArray hlayout.rowPtr
  obtain rfl := agree_numbers hentries
  obtain ⟨args', hargs', hargs⟩ := h.foundArray hlayout.args
  obtain ⟨heads', hheads', hheads⟩ := h.foundArray hlayout.heads
  obtain ⟨attrs, tag, hattrs, hshape⟩ := hlayout.rows
  obtain ⟨attrs', hattrs', hattr⟩ := h.found hattrs
  obtain ⟨shape', hshape', htable⟩ := hattr.foundArray hshape
  cases htable with
  | @cons _ tag' _ _ htag htable =>
      cases htable with
      | cons hrows hnone =>
          cases hnone
          cases hrows with
          | @array _ rows' hrows =>
              refine ⟨⟨nodes', t.rowPtr, rows'⟩, args', heads',
                ⟨hnodes', hentries', hargs', hheads', ⟨attrs', tag', hattrs', hshape'⟩,
                  hlayout.counts.trans (congrArg (· + 1) hnodes.length_eq), hlayout.starts⟩, ?_, ?_, ?_⟩
              · apply forall₂_agree hargs hnames
                rintro an an' name han ⟨node, row, hrow, rfl⟩
                obtain ⟨node', hrow', hnode⟩ :=
                  argRow_agree ⟨nodes', t.rowPtr, rows'⟩ hnodes rfl han hrow
                exact ⟨node', row, hrow', (nameOf_agree hnode).symm⟩
              · apply forall₂_agree hargs hshapes
                rintro an an' shape han ⟨node, row, hrow, hshape⟩
                obtain ⟨node', hrow', -⟩ :=
                  argRow_agree ⟨nodes', t.rowPtr, rows'⟩ hnodes rfl han hrow
                exact ⟨node', row, hrow', rowShape_agree hrows hshape⟩
              · apply forall₂_agree hheads houtputs
                rintro head head' shape hhead ⟨row, hrow, hshape⟩
                exact ⟨row, headRow_agree ⟨nodes', t.rowPtr, rows'⟩ hnodes rfl hhead hrow,
                  rowShape_agree hrows hshape⟩

-- The parser reads the value a text spells, up to the strings nothing names.
theorem parse_text {w text w' : List UInt8} (hw : Blank w) (h : ValueText Decoded named text root)
    (hw' : Blank w') :
    ∃ read, Agree named root read ∧ parse strtod (w ++ (text ++ w')) = pure (read, w') := by
  have hends : ∀ b ∈ w'.head?, endsNumber b := by
    intro b hb
    exact Or.inl (hw' b (List.mem_of_head? hb))
  obtain ⟨read, hagree, hread⟩ :=
    (parse_reads (2 * (w ++ (text ++ w')).length + 1)).1 text root w' h hends (by
      simp only [List.length_append]
      omega)
  refine ⟨read, hagree, ?_⟩
  rw [parse, parseValue_skipWs, ← parseValue_skipWs, skipWs_blank hw, parseValue_skipWs]
  exact hread

theorem parseDeployShapes_text {w text w' : List UInt8} (hw : Blank w)
    (h : ValueText Decoded (· = NAME) text root) (hw' : Blank w') (hout : Recovered root out) :
    parseDeployShapes strtod (some (w ++ (text ++ w'))) = pure out := by
  obtain ⟨read, hagree, hread⟩ := parse_text hw h hw'
  unfold parseDeployShapes
  simp only
  rw [hread, pure_bind]
  exact resolve_found (recovered_agree hagree hout)

theorem parse_sound (text : List UInt8) :
    Sound (parse strtod text) fun read => parse strtod text = pure read := by
  have hskip := skipWs_length_le text
  have htakes : Takes 1 (skipWs text).length (parseValue strtod (2 * text.length + 1) (skipWs text)) :=
    (parse_takes _).1 _ (by omega)
  exact sound_mono (sound_result htakes) fun _ h => h.1

theorem parseDeployShapes_sound (file : Option (List UInt8)) :
    Sound (parseDeployShapes strtod file) fun out => ∃ text root rest, file = some text ∧
      parse strtod text = pure (root, rest) ∧ Recovered root out := by
  cases file with
  | none => exact sound_fail ()
  | some text =>
      apply sound_seq (parse_sound text)
      rintro ⟨root, rest⟩ hread
      apply sound_mono (resolve_sound root)
      intro out hout
      exact ⟨text, root, rest, rfl, hread, hout⟩

end Reading

end AlpSdk.DrpAi

import AlpSdk.Gd32.Negotiated

-- The reply to a BATCH: what the bridge answers for the operations it ran, its encoding, and what
-- the driver makes of it (docs/gd32-bridge-protocol.md §3.16).
namespace AlpSdk.Gd32

open Library.Bytes Library.Local
open Library.Effect (Signature Env Exec)

-- The answer to one operation.
structure SubReply where
  status : UInt8
  payload : List UInt8
  deriving DecidableEq

namespace SubReply

def bytes (r : SubReply) : List UInt8 := r.status :: UInt8.ofNat r.payload.length :: r.payload

def code (r : SubReply) : UInt8 := r.status &&& STATUS_CODE_MASK

-- The payload is of the length that the operation and the status code call for.
def Shaped (entry : PlanEntry) (r : SubReply) : Prop :=
  if r.code ≠ 0 then r.payload = []
  else if entry.isRead2 then
    r.payload.length = READ2_HDR_BYTES + 2 * (r.payload.getD 8 0).toNat ∧
      r.payload.length ≤ entry.replyMax
  else r.payload.length = entry.replyMax

instance (entry : PlanEntry) (r : SubReply) : Decidable (r.Shaped entry) := by
  unfold Shaped
  infer_instance

end SubReply

def encodeBatch (rs : List SubReply) : List UInt8 :=
  UInt8.ofNat rs.length :: rs.flatMap SubReply.bytes

-- What the bridge produces: the operations run in order, up to the first that fails, and a
-- sub-status is a code that carries no stamp.
def Produced : List PlanEntry → List SubReply → Prop
  | [], [] => True
  | entry :: plan, r :: rs =>
      r.status = r.code ∧ r.Shaped entry ∧ if r.code = 0 then Produced plan rs else rs = []
  | _, _ => False

instance decidableProduced : (plan : List PlanEntry) → (rs : List SubReply) → Decidable (Produced plan rs)
  | [], [] => isTrue trivial
  | [], _ :: _ => isFalse id
  | _ :: _, [] => isFalse id
  | _ :: plan, _ :: rs =>
      have := decidableProduced plan rs
      inferInstanceAs (Decidable (_ ∧ _ ∧ ite _ _ _))

def Shapes : List PlanEntry → List SubReply → Prop
  | _, [] => True
  | [], _ :: _ => False
  | entry :: plan, r :: rs => r.Shaped entry ∧ Shapes plan rs

-- What the host takes for a reply that its request explains: it asks of a batch that stopped
-- early only that the last operation failed, and looks at no stamp.
def Explained (plan : List PlanEntry) (rs : List SubReply) : Prop :=
  Shapes plan rs ∧ (rs.length < plan.length → ∃ r, rs.getLast? = some r ∧ r.code ≠ 0)

-- The status and payload of each operation, not ready where none was executed.
def delivered : List BatchOp → List SubReply → List (Status × List UInt8)
  | [], _ => []
  | _ :: ops, [] => (.error .notReady, []) :: delivered ops []
  | _ :: ops, r :: rs => (statusFromWire r.code, r.payload) :: delivered ops rs

theorem shapes_nil (plan : List PlanEntry) : Shapes plan [] := by
  cases plan with
  | nil => trivial
  | cons entry plan => trivial

theorem Shapes.length_le {plan : List PlanEntry} {rs : List SubReply} (h : Shapes plan rs) :
    rs.length ≤ plan.length := by
  induction plan generalizing rs with
  | nil =>
      cases rs with
      | nil => exact le_rfl
      | cons r rs => exact h.elim
  | cons entry plan ih =>
      cases rs with
      | nil => exact Nat.zero_le _
      | cons r rs => exact Nat.succ_le_succ (ih h.2)

theorem Produced.explained {plan : List PlanEntry} {rs : List SubReply} (h : Produced plan rs) :
    Explained plan rs := by
  induction plan generalizing rs with
  | nil =>
      cases rs with
      | nil => exact ⟨trivial, fun hlt => absurd hlt (lt_irrefl _)⟩
      | cons r rs => exact h.elim
  | cons entry plan ih =>
      cases rs with
      | nil => exact h.elim
      | cons r rs =>
          obtain ⟨-, hshaped, hrest⟩ := h
          split at hrest
          · obtain ⟨hshapes, hlast⟩ := ih hrest
            refine ⟨⟨hshaped, hshapes⟩, fun hlt => ?_⟩
            obtain ⟨r', hr', hcode⟩ := hlast (by simpa using hlt)
            refine ⟨r', ?_, hcode⟩
            rw [List.getLast?_cons, hr', Option.getD_some]
          · rename_i hcode
            subst hrest
            refine ⟨⟨hshaped, ?_⟩, fun _ => ⟨r, rfl, hcode⟩⟩
            exact shapes_nil plan

theorem SubReply.Shaped.length_le {entry : PlanEntry} {r : SubReply} (h : r.Shaped entry) :
    r.payload.length ≤ entry.replyMax := by
  unfold Shaped at h
  split at h
  · simp [h]
  · split at h
    · exact h.2
    · exact h.le

theorem SubReply.length_bytes (r : SubReply) : r.bytes.length = 2 + r.payload.length := by
  simp only [bytes, List.length_cons]
  omega

-- Where a suffix of the buffer is known, so are its bytes at an offset.
theorem getD_drop (p : List UInt8) (pos i : Nat) : p.getD (pos + i) 0 = (p.drop pos).getD i 0 := by
  simp only [List.getD_eq_getElem?_getD, List.getElem?_drop]

-- What a walk reads where the answer to one operation starts.
theorem reads_bytes {p tail : List UInt8} {r : SubReply} {pos : Nat} (hsize : r.payload.length < 256)
    (hp : p.drop pos = r.bytes ++ tail) :
    p.getD pos 0 = r.status ∧ (p.getD (pos + 1) 0).toNat = r.payload.length ∧
      slice (pos + 2) r.payload.length p = r.payload := by
  refine ⟨?_, ?_, ?_⟩
  · rw [← Nat.add_zero pos, getD_drop, hp]
    rfl
  · rw [getD_drop, hp]
    exact Nat.mod_eq_of_lt hsize
  · rw [slice, ← List.drop_drop, hp]
    exact List.take_left

theorem batchEntry_bytes {p tail : List UInt8} {entry : PlanEntry} {r : SubReply} {pos : Nat}
    (hmax : entry.replyMax < 256) (hshaped : r.Shaped entry) (hpos : pos ≤ p.length)
    (hp : p.drop pos = r.bytes ++ tail) :
    batchEntry p entry pos = some (r.code, pos + r.bytes.length) := by
  have hle := hshaped.length_le
  have hlength : p.length = pos + (2 + r.payload.length + tail.length) := by
    have hdrop := congrArg List.length hp
    rw [List.length_append, SubReply.length_bytes, List.length_drop] at hdrop
    omega
  obtain ⟨hstatus, hlen, -⟩ := reads_bytes (by omega) hp
  have hcode : p.getD pos 0 &&& STATUS_CODE_MASK = r.code := by
    rw [hstatus]
    rfl
  have hgot : 8 < r.payload.length → p.getD (pos + 2 + 8) 0 = r.payload.getD 8 0 := by
    intro hlt
    rw [Nat.add_assoc, getD_drop, hp, List.getD_eq_getElem?_getD, List.getD_eq_getElem?_getD]
    exact congrArg (·.getD 0) (List.getElem?_append_left hlt)
  have hnext : pos + r.bytes.length = pos + 2 + r.payload.length := by
    rw [SubReply.length_bytes, Nat.add_assoc]
  simp only [batchEntry, hcode, hlen, hnext]
  rw [if_neg (by omega), if_neg (by omega)]
  unfold SubReply.Shaped at hshaped
  split at hshaped
  · rename_i hfailed
    rw [if_pos hfailed, if_neg (by simp [hshaped])]
  · rename_i hfine
    rw [if_neg hfine]
    split at hshaped
    · rename_i hread2
      obtain ⟨hheader, -⟩ := hshaped
      have hhdr : READ2_HDR_BYTES = 9 := rfl
      rw [if_pos hread2, hgot (by omega), if_neg (by omega)]
    · rename_i hfixed
      rw [if_neg hfixed, if_neg (by simp [hshaped])]

theorem drop_two {p : List UInt8} {pos : Nat} (h : pos + 2 ≤ p.length) :
    p.drop pos = p.getD pos 0 :: p.getD (pos + 1) 0 :: p.drop (pos + 2) := by
  rw [List.drop_eq_getElem_cons (by omega), List.drop_eq_getElem_cons (by omega), getD_of_lt (by omega),
    getD_of_lt (by omega)]

theorem bytes_of_batchEntry {p : List UInt8} {entry : PlanEntry} {pos pos' : Nat} {status : UInt8}
    (h : batchEntry p entry pos = some (status, pos')) :
    ∃ r : SubReply, r.Shaped entry ∧ p.drop pos = r.bytes ++ p.drop pos' ∧ status = r.code ∧
      pos' = pos + r.bytes.length := by
  unfold batchEntry at h
  split at h
  · cases h
  · rename_i hhead
    simp only at h
    split at h
    · cases h
    · rename_i hfits
      simp only [not_or, not_lt] at hhead hfits
      have hlength := length_slice hfits.1
      have hgot : 8 < (p.getD (pos + 1) 0).toNat →
          (slice (pos + 2) (p.getD (pos + 1) 0).toNat p).getD 8 0 = p.getD (pos + 2 + 8) 0 := by
        intro hlt
        rw [getD_of_lt (by omega), getElem_slice]
      have hbytes : p.drop pos =
          SubReply.bytes ⟨p.getD pos 0, slice (pos + 2) (p.getD (pos + 1) 0).toNat p⟩
            ++ p.drop (pos + 2 + (p.getD (pos + 1) 0).toNat) := by
        simp only [SubReply.bytes, hlength, UInt8.ofNat_toNat, List.cons_append, slice_append_drop]
        exact drop_two (by omega)
      suffices hend : status = p.getD pos 0 &&& STATUS_CODE_MASK ∧
          pos' = pos + 2 + (p.getD (pos + 1) 0).toNat ∧
          SubReply.Shaped entry ⟨p.getD pos 0, slice (pos + 2) (p.getD (pos + 1) 0).toNat p⟩ by
        obtain ⟨rfl, rfl, hshaped⟩ := hend
        refine ⟨_, hshaped, hbytes, rfl, ?_⟩
        rw [SubReply.length_bytes, hlength, Nat.add_assoc]
      unfold SubReply.Shaped
      simp only [SubReply.code, hlength]
      split at h
      · rename_i hfailed
        split at h
        · cases h
        · rename_i hempty
          cases h
          refine ⟨rfl, rfl, ?_⟩
          rw [if_pos hfailed, ← List.length_eq_zero_iff, hlength]
          omega
      · rename_i hfine
        rw [if_neg hfine]
        split at h
        · rename_i hread2
          rw [if_pos hread2]
          split at h
          · cases h
          · rename_i hheader
            cases h
            have hhdr : READ2_HDR_BYTES = 9 := rfl
            refine ⟨rfl, rfl, ?_, by omega⟩
            rw [hgot (by omega)]
            omega
        · rename_i hfixed
          rw [if_neg hfixed]
          split at h
          · cases h
          · rename_i hsame
            cases h
            exact ⟨rfl, rfl, not_not.mp hsame⟩

-- The status code that the walk over the results ends with.
def lastCode (last : UInt8) (rs : List SubReply) : UInt8 := (rs.getLast?.map SubReply.code).getD last

theorem lastCode_cons (last : UInt8) (r : SubReply) (rs : List SubReply) :
    lastCode last (r :: rs) = lastCode r.code rs := by
  simp only [lastCode, List.getLast?_cons]
  cases rs.getLast? with
  | none => rfl
  | some r' => rfl

theorem drop_of_append {p before tail : List UInt8} {pos : Nat} (hpos : pos ≤ p.length)
    (hp : p.drop pos = before ++ tail) :
    pos + before.length ≤ p.length ∧ p.drop (pos + before.length) = tail := by
  have hlength := congrArg List.length hp
  rw [List.length_append, List.length_drop] at hlength
  refine ⟨by omega, ?_⟩
  rw [← List.drop_drop, hp, List.drop_left]

theorem batchEntries_bytes {p tail : List UInt8} {plan : List PlanEntry} {rs : List SubReply}
    {pos : Nat} (last : UInt8) (hmax : ∀ entry ∈ plan, entry.replyMax < 256) (hshapes : Shapes plan rs)
    (hpos : pos ≤ p.length) (hp : p.drop pos = rs.flatMap SubReply.bytes ++ tail) :
    batchEntries p plan rs.length pos last =
      some (pos + (rs.flatMap SubReply.bytes).length, lastCode last rs) := by
  induction plan generalizing rs pos last with
  | nil =>
      cases rs with
      | nil => rfl
      | cons r rs => exact hshapes.elim
  | cons entry plan ih =>
      cases rs with
      | nil => rfl
      | cons r rs =>
          rw [List.flatMap_cons, List.append_assoc] at hp
          have hentry := batchEntry_bytes (hmax entry List.mem_cons_self) hshapes.1 hpos hp
          obtain ⟨hpos', hp'⟩ := drop_of_append hpos hp
          have hrest :=
            ih r.code (fun e he => hmax e (List.mem_cons_of_mem _ he)) hshapes.2 hpos' hp'
          simp only [List.length_cons, batchEntries, hentry, hrest, lastCode_cons, List.flatMap_cons,
            List.length_append, Nat.add_assoc]

theorem bytes_of_batchEntries {p : List UInt8} {plan : List PlanEntry} {executed pos pos' : Nat}
    {last last' : UInt8} (h : batchEntries p plan executed pos last = some (pos', last')) :
    ∃ rs, rs.length = executed ∧ Shapes plan rs ∧
      p.drop pos = rs.flatMap SubReply.bytes ++ p.drop pos' ∧
      pos' = pos + (rs.flatMap SubReply.bytes).length ∧ last' = lastCode last rs := by
  induction plan generalizing executed pos last with
  | nil =>
      cases executed with
      | zero =>
          cases h
          exact ⟨[], rfl, trivial, rfl, rfl, rfl⟩
      | succ executed => cases h
  | cons entry plan ih =>
      cases executed with
      | zero =>
          cases h
          exact ⟨[], rfl, trivial, rfl, rfl, rfl⟩
      | succ executed =>
          simp only [batchEntries] at h
          split at h
          · cases h
          · rename_i status mid hentry
            obtain ⟨r, hshaped, hbytes, rfl, rfl⟩ := bytes_of_batchEntry hentry
            obtain ⟨rs, rfl, hshapes, hrest, rfl, rfl⟩ := ih h
            refine ⟨r :: rs, rfl, ⟨hshaped, hshapes⟩, ?_, ?_, (lastCode_cons last r rs).symm⟩
            · rw [hbytes, hrest, List.flatMap_cons, List.append_assoc]
            · rw [List.flatMap_cons, List.length_append, Nat.add_assoc]

theorem lastCode_ne_zero {rs : List SubReply} :
    lastCode 0 rs ≠ 0 ↔ ∃ r, rs.getLast? = some r ∧ r.code ≠ 0 := by
  unfold lastCode
  cases rs.getLast? with
  | none => simp
  | some r => simp

-- A plan whose lengths the bytes of a reply can hold.
structure Bounded (plan : List PlanEntry) : Prop where
  count : plan.length < 256
  entry : ∀ entry ∈ plan, entry.replyMax < 256

theorem batchReplyLen_encode {plan : List PlanEntry} {rs : List SubReply} (hplan : Bounded plan)
    (h : Explained plan rs) (filler : List UInt8) :
    batchReplyLen plan (encodeBatch rs ++ filler) = some (encodeBatch rs).length := by
  obtain ⟨hshapes, hshort⟩ := h
  have hle := hshapes.length_le
  have hcount := hplan.count
  have hexecuted : ((encodeBatch rs ++ filler).getD 0 0).toNat = rs.length :=
    Nat.mod_eq_of_lt (by omega)
  have hwalk : batchEntries (encodeBatch rs ++ filler) plan rs.length 1 0
      = some ((encodeBatch rs).length, lastCode 0 rs) := by
    rw [batchEntries_bytes 0 hplan.entry hshapes (by simp [encodeBatch]) rfl]
    simp only [encodeBatch, List.length_cons, Nat.add_comm 1]
  simp only [batchReplyLen, hexecuted, hwalk]
  rw [if_neg (by simp [encodeBatch, hle]), if_neg]
  rintro ⟨hlt, hlast⟩
  exact lastCode_ne_zero.mpr (hshort hlt) hlast

theorem encode_of_batchReplyLen {plan : List PlanEntry} {p : List UInt8} {n : Nat}
    (h : batchReplyLen plan p = some n) :
    ∃ rs, Explained plan rs ∧ p = encodeBatch rs ++ p.drop n ∧ n = (encodeBatch rs).length := by
  unfold batchReplyLen at h
  split at h
  · cases h
  · rename_i hhead
    simp only [not_or, not_lt] at hhead
    split at h
    · cases h
    · rename_i pos last hwalk
      split at h
      · cases h
      · rename_i hstop
        cases h
        obtain ⟨rs, hlength, hshapes, hp, rfl, rfl⟩ := bytes_of_batchEntries hwalk
        refine ⟨rs, ⟨hshapes, fun hlt => ?_⟩, ?_, ?_⟩
        · refine lastCode_ne_zero.mp fun hlast => hstop ⟨?_, hlast⟩
          rwa [← hlength]
        · have hcons : p = p.getD 0 0 :: p.drop 1 := by
            rw [getD_of_lt hhead.1, ← List.drop_eq_getElem_cons hhead.1, List.drop_zero]
          rw [encodeBatch, hlength, UInt8.ofNat_toNat, List.cons_append, ← hp]
          exact hcons
        · rw [encodeBatch, List.length_cons, Nat.add_comm]

theorem batchReplyLen_iff {plan : List PlanEntry} (hplan : Bounded plan) (p : List UInt8) (n : Nat) :
    batchReplyLen plan p = some n ↔
      ∃ rs filler, Explained plan rs ∧ p = encodeBatch rs ++ filler ∧ n = (encodeBatch rs).length := by
  constructor
  · intro h
    obtain ⟨rs, hrs, hp, hn⟩ := encode_of_batchReplyLen h
    exact ⟨rs, p.drop n, hrs, hp, hn⟩
  · rintro ⟨rs, filler, hrs, rfl, rfl⟩
    exact batchReplyLen_encode hplan hrs filler

-- The second walk, over the payload that the first one delimited.
theorem batchResults_bytes {p : List UInt8} (ops : List BatchOp) {plan : List PlanEntry}
    {rs : List SubReply} {pos : Nat} (hmax : ∀ entry ∈ plan, entry.replyMax < 256)
    (hshapes : Shapes plan rs) (hpos : pos ≤ p.length) {tail : List UInt8}
    (hp : p.drop pos = rs.flatMap SubReply.bytes ++ tail) :
    batchResults p ops rs.length pos = delivered ops rs := by
  induction ops generalizing plan rs pos with
  | nil => 
      cases rs with
      | nil => rfl
      | cons r rs => rfl
  | cons o ops ih =>
      cases rs with
      | nil => 
          have hrest : batchResults p ops 0 pos = delivered ops [] := ih hmax (shapes_nil plan) hpos hp
          exact congrArg _ hrest
      | cons r rs =>
          cases plan with
          | nil => exact hshapes.elim
          | cons entry plan =>
              rw [List.flatMap_cons, List.append_assoc] at hp
              have hsize := hshapes.1.length_le.trans_lt (hmax entry List.mem_cons_self)
              obtain ⟨hstatus, hlen, hpayload⟩ := reads_bytes hsize hp
              obtain ⟨hpos', hp'⟩ := drop_of_append hpos hp
              have hrest := ih (fun e he => hmax e (List.mem_cons_of_mem _ he)) hshapes.2 hpos' hp'
              rw [SubReply.length_bytes, ← Nat.add_assoc] at hrest
              simp only [List.length_cons, batchResults, delivered, hstatus, hlen, hpayload, hrest]
              rfl

theorem batchResults_encode (ops : List BatchOp) {plan : List PlanEntry} {rs : List SubReply}
    (hplan : Bounded plan) (hshapes : Shapes plan rs) :
    batchResults (encodeBatch rs) ops ((encodeBatch rs).getD 0 0).toNat 1 = delivered ops rs := by
  have hle := hshapes.length_le
  have hcount := hplan.count
  have hexecuted : ((encodeBatch rs).getD 0 0).toNat = rs.length := Nat.mod_eq_of_lt (by omega)
  rw [hexecuted]
  exact batchResults_bytes ops hplan.entry hshapes (by simp [encodeBatch]) (List.append_nil _).symm

-- What the plan of an accepted operation is.
def planEntry (o : BatchOp) : PlanEntry :=
  match batchAllow.find? fun entry => entry.1 = o.op with
  | none => ⟨0, false⟩
  | some (op, _, replyMax) =>
      if op = CMD_ADC_STREAM_READ2 then ⟨READ2_HDR_BYTES + 2 * (o.args.getD 1 0).toNat, true⟩
      else ⟨replyMax, false⟩

theorem planEntry_of_planOp {c : Ctx} {streams : List UInt8} {o : BatchOp} {entry : PlanEntry}
    (h : planOp c streams o = .ok entry) : entry = planEntry o ∧ entry.replyMax ≤ o.replyCap := by
  unfold planOp at h
  unfold planEntry
  cases hfound : batchAllow.find? fun entry => entry.1 = o.op with
  | none =>
      rw [hfound] at h
      cases h
  | some row =>
      obtain ⟨op, reqLen, replyMax⟩ := row
      rw [hfound] at h
      simp only at h ⊢
      split at h
      · cases h
      · split at h
        · rename_i hread2
          split_ifs at h with hnone hstream hagain hlarge hcap
          cases h
          simp only [if_pos hread2, true_and]
          omega
        · rename_i hfixed
          split at h
          · cases h
          · rename_i hcap
            cases h
            simp only [if_neg hfixed, true_and]
            omega

theorem plan_of_planOps {c : Ctx} {streams : List UInt8} {ops : List BatchOp} {plan : List PlanEntry}
    (h : planOps c streams ops = .ok plan) :
    plan = ops.map planEntry ∧ ∀ o ∈ ops, (planEntry o).replyMax ≤ o.replyCap := by
  induction ops generalizing streams plan with
  | nil =>
      cases h
      exact ⟨rfl, nofun⟩
  | cons o ops ih =>
      simp only [planOps] at h
      split at h
      · cases h
      · rename_i entry hentry
        split at h
        · cases h
        · rename_i rest hrest
          cases h
          obtain ⟨rfl, hcap⟩ := planEntry_of_planOp hentry
          obtain ⟨rfl, hcaps⟩ := ih hrest
          exact ⟨rfl, List.forall_mem_cons.mpr ⟨hcap, hcaps⟩⟩

-- No answer is longer than the buffer it is copied to.
theorem delivered_fits {ops : List BatchOp} {rs : List SubReply}
    (hcaps : ∀ o ∈ ops, (planEntry o).replyMax ≤ o.replyCap) (hshapes : Shapes (ops.map planEntry) rs) :
    List.Forall₂ (fun (o : BatchOp) result => result.2.length ≤ o.replyCap) ops (delivered ops rs) := by
  induction ops generalizing rs with
  | nil => exact .nil
  | cons o ops ih =>
      obtain ⟨hcap, hcaps⟩ := List.forall_mem_cons.mp hcaps
      cases rs with
      | nil => exact .cons (Nat.zero_le _) (ih hcaps (shapes_nil _))
      | cons r rs => exact .cons (hshapes.1.length_le.trans hcap) (ih hcaps hshapes.2)

theorem length_answers_le {plan : List PlanEntry} {rs : List SubReply} (h : Shapes plan rs) :
    (rs.flatMap SubReply.bytes).length ≤ (plan.map fun entry => 2 + entry.replyMax).sum := by
  induction plan generalizing rs with
  | nil =>
      cases rs with
      | nil => exact le_rfl
      | cons r rs => exact h.elim
  | cons entry plan ih =>
      cases rs with
      | nil => exact Nat.zero_le _
      | cons r rs =>
          have hone := h.1.length_le
          have hrest := ih h.2
          rw [List.flatMap_cons, List.length_append, SubReply.length_bytes, List.map_cons, List.sum_cons]
          omega

theorem length_encode_le {plan : List PlanEntry} {rs : List SubReply} (h : Shapes plan rs) :
    (encodeBatch rs).length ≤ worstReply plan := by
  have hanswers := length_answers_le h
  rw [encodeBatch, List.length_cons, worstReply]
  omega

theorem worstReply_bounds (plan : List PlanEntry) :
    plan.length < worstReply plan ∧ ∀ entry ∈ plan, entry.replyMax < worstReply plan := by
  unfold worstReply
  induction plan with
  | nil => exact ⟨Nat.lt_add_right 0 Nat.one_pos, nofun⟩
  | cons entry plan ih =>
      obtain ⟨hcount, hentry⟩ := ih
      rw [List.map_cons, List.sum_cons]
      refine ⟨?_, List.forall_mem_cons.mpr ⟨by omega, fun e he => ?_⟩⟩
      · rw [List.length_cons]
        omega
      · have hlt := hentry e he
        omega

theorem bounded_of_worstReply {plan : List PlanEntry} (h : worstReply plan ≤ BIG_MAX_PAYLOAD_BYTES) :
    Bounded plan := by
  have hbig : BIG_MAX_PAYLOAD_BYTES = 252 := rfl
  obtain ⟨hcount, hentry⟩ := worstReply_bounds plan
  refine ⟨by omega, fun entry he => ?_⟩
  have hlt := hentry entry he
  omega

-- What the host reads of a frame that the bridge staged and of the filler after it.
theorem clocked_frame (status : UInt8) (payload filler : List UInt8) {len : Nat}
    (hlen : 4 + payload.length ≤ len) :
    ∃ rest, clocked len (replyFrame status payload ++ filler) = replyFrame status payload ++ rest := by
  have hframe : (replyFrame status payload).length = 4 + payload.length := by
    simp only [replyFrame, List.cons_append, List.length_cons, List.length_append, length_putLE]
    omega
  refine ⟨((filler ++ List.replicate len 0).take (len - (replyFrame status payload).length)), ?_⟩
  rw [clocked, List.append_assoc, List.take_append, List.take_of_length_le (by omega)]

-- The reply to a BATCH, read in full: the walk finds its end, and its payload is delivered.
theorem inspect_batch {ops : List BatchOp} {plan : List PlanEntry} {rs : List SubReply} {status : UInt8}
    (hplan : Bounded plan) (hrs : Explained plan rs) (hstatus : status &&& STATUS_CODE_MASK = 0)
    (rest : List UInt8) :
    inspect (batchXfer ops plan) (replyFrame status (encodeBatch rs) ++ rest) =
      .full status (encodeBatch rs).length := by
  have hfits := length_encode_le hrs.1
  have hlen : replyLen (batchXfer ops plan) (replyFrame status (encodeBatch rs) ++ rest) =
      some (encodeBatch rs).length := by
    have hpayload : slice 2 (worstReply plan) (replyFrame status (encodeBatch rs) ++ rest) =
        encodeBatch rs ++ (putLE 2 (crc16 (SOF :: status :: encodeBatch rs)) ++ rest).take
          (worstReply plan - (encodeBatch rs).length) := by
      change ((encodeBatch rs ++ putLE 2 (crc16 (SOF :: status :: encodeBatch rs))) ++ rest).take _ = _
      rw [List.append_assoc, List.take_append, List.take_of_length_le hfits]
    change (if status &&& STATUS_CODE_MASK = 0 then
      batchReplyLen plan (slice 2 (worstReply plan) (replyFrame status (encodeBatch rs) ++ rest))
      else none) = _
    rw [if_pos hstatus, hpayload, batchReplyLen_encode hplan hrs]
  unfold inspect
  rw [if_neg (by simp [replyFrame]), hlen]
  simp only [crcHolds_frame, if_true]
  rfl

-- A host that takes the stamp of a status byte for a new one, or compares none.
def Fresh (c : Ctx) (status : UInt8) : Prop :=
  c.seqEnabled = true → spiSeqClassify c (status >>> 4) = .fresh

theorem settle_batch (ops : List BatchOp) {plan : List PlanEntry} {rs : List SubReply} {status : UInt8}
    {c : Ctx} (hplan : Bounded plan) (hrs : Explained plan rs) (hstatus : status &&& STATUS_CODE_MASK = 0)
    (hfresh : Fresh c status) (rest : List UInt8) :
    ∃ c', settle (batchXfer ops plan) c (replyFrame status (encodeBatch rs) ++ rest) =
      .deliver c' (encodeBatch rs) := by
  have hpayload : slice 2 (encodeBatch rs).length (replyFrame status (encodeBatch rs) ++ rest) =
      encodeBatch rs := by
    change ((encodeBatch rs ++ putLE 2 (crc16 (SOF :: status :: encodeBatch rs))) ++ rest).take _ = _
    rw [List.append_assoc, List.take_left]
  simp only [settle, inspect_batch hplan hrs hstatus, settleFull, hstatus, hpayload]
  rw [if_neg (by rintro ⟨hcmd, -⟩; cases hcmd)]
  split
  · rename_i hseq
    rw [hfresh hseq]
    exact ⟨_, rfl⟩
  · exact ⟨_, rfl⟩

-- The command of the transfer under way.
def underWay (trace : Trace) : Option UInt8 :=
  trace.reverse.findSome? fun i =>
    match i.cmd with
    | .begin x => some x.cmd
    | _ => none

-- A bridge that answers a BATCH with `rs`: the request gets through, and a read returns the frame
-- it staged, with a stamp that is new to the host, and filler. All else is as it may be.
def AnswersBatch (rs : List SubReply) (trace : Trace) (c : Ctx) :
    (cmd : BusCmd) → BusCmd.Reply cmd → Prop
  | .spiWrite _, reply => underWay trace = some CMD_BATCH → reply = .ok ()
  | .spiRead _, reply => underWay trace = some CMD_BATCH →
      ∃ status filler, status &&& STATUS_CODE_MASK = 0 ∧ Fresh c status ∧
        reply = .ok (replyFrame status (encodeBatch rs) ++ filler)
  | _, _ => True

def servingBatch (rs : List SubReply) : Env (issuing busSig Ctx) Trace := fun trace i reply trace' =>
  recording trace i reply trace' ∧ AnswersBatch rs trace i.state i.cmd reply

theorem quiet_servingBatch (rs : List SubReply) : Quiet (servingBatch rs) :=
  fun trace c cmd reply trace' hcmd henv => quiet_recording trace c cmd reply trace' hcmd henv.1

theorem underWay_begin {trace trace' : Trace} {c : Ctx} {x : Xfer}
    (h : recording trace ⟨c, .begin x⟩ () trace') : underWay trace' = some x.cmd := by
  have htrace : trace' = trace ++ [⟨c, .begin x⟩] := h
  rw [htrace]
  simp [underWay]

theorem underWay_write {trace trace' : Trace} {c : Ctx} {frame : List UInt8} {reply : Status}
    (h : recording trace ⟨c, .spiWrite frame⟩ reply trace') : underWay trace' = underWay trace := by
  have htrace : trace' = trace ++ [⟨c, .spiWrite frame⟩] := h
  rw [htrace]
  simp [underWay]

section Transfer

variable (ops : List BatchOp) {plan : List PlanEntry} {rs : List SubReply} {c : Ctx} {trace : Trace}

-- The bytes of the one read, with the context it was made in.
def Answered (rs : List SubReply) (result : Except AlpError (List UInt8)) (c : Ctx) :
    Prop :=
  ∃ status rest, status &&& STATUS_CODE_MASK = 0 ∧ Fresh c status ∧
    result = .ok (replyFrame status (encodeBatch rs) ++ rest)

theorem wp_exchange_batch (hplan : Bounded plan) (hrs : Explained plan rs)
    (htrace : underWay trace = some CMD_BATCH) :
    wp (servingBatch rs) (fun _ => True) True (exchange (batchXfer ops plan))
      (fun result c' _ => Answered rs result c') c trace := by
  have hfits := length_encode_le hrs.1
  refine wp_exchange (quiet_servingBatch rs) trivial (fun c' e trace' _ henv => ?_) fun c' trace' _ henv => ?_
  · cases henv.2 htrace
  · refine ⟨trivial, fun c'' _ => wp_issue_bind trivial fun reply trace'' henv' => ?_⟩
    have htrace' : underWay trace' = some CMD_BATCH := (underWay_write henv.1).trans htrace
    obtain ⟨status, filler, hstatus, hfresh, rfl⟩ := henv'.2 htrace'
    have hroom : 4 + (encodeBatch rs).length ≤ 2 + (batchXfer ops plan).replyMax + 2 := by
      simp only [batchXfer]
      omega
    obtain ⟨rest, hclocked⟩ := clocked_frame status (encodeBatch rs) filler hroom
    simp only [hclocked, inspect_batch hplan hrs hstatus]
    rw [if_neg (by rintro ⟨⟩)]
    exact wp_pure trivial ⟨status, rest, hstatus, hfresh, rfl⟩

theorem wp_core_batch {depth : Nat} (hplan : Bounded plan) (hrs : Explained plan rs)
    (hsend : Sendable c (batchXfer ops plan)) :
    wp (servingBatch rs) (fun _ => True) True (spiXferCore depth (batchXfer ops plan))
      (fun ending _ _ => ending = .delivered (encodeBatch rs)) c trace := by
  cases depth with
  | zero => exact wp_exhausted trivial trivial
  | succ depth =>
      refine wp_xferBody trivial (fun h => absurd hsend h) fun _ trace' henv => ?_
      have hstarted := underWay_begin henv.1
      refine wp_sendOnce (wp_exchange_batch ops hplan hrs hstarted) (fun e c' _ _ h => ?_) ?_
      · obtain ⟨_, _, _, _, heq⟩ := h
        cases heq
      · rintro reply c' trace'' _ ⟨status, rest, hstatus, hfresh, heq⟩
        cases heq
        obtain ⟨c'', hsettle⟩ := settle_batch ops hplan hrs hstatus hfresh rest
        rw [hsettle]
        exact fun _ _ => ⟨trivial, rfl⟩

end Transfer

-- What `gd32g553_batch` asks of the operations once the link is prepared.
structure Accepted (c : Ctx) (ops : List BatchOp) : Prop where
  spi : c.spi = true
  granted : has c.granted LINK_FEAT_BATCH = true
  planned : planOps c [] ops = .ok (ops.map planEntry)
  request : (batchPayload ops).length ≤ linkMaxPayload c
  reply : worstReply (ops.map planEntry) ≤ linkMaxPayload c

theorem Accepted.bounded {c : Ctx} {ops : List BatchOp} (h : Accepted c ops) (hsized : Sized c) :
    Bounded (ops.map planEntry) := by
  have hreply := h.reply
  rw [linkMaxPayload_of_sized hsized] at hreply
  exact bounded_of_worstReply (hreply.trans hsized.high)

theorem Accepted.sendable {c : Ctx} {ops : List BatchOp} (h : Accepted c ops) :
    Sendable c (batchXfer ops (ops.map planEntry)) :=
  ⟨h.spi, h.request, h.reply⟩

-- The run of a batch after its preparation.
theorem result_of_accepted {depth : Nat} {ops : List BatchOp} {rs : List SubReply} {c c' : Ctx}
    {trace trace' : Trace} {result : Except AlpError (UInt8 × List (Status × List UInt8))}
    (hreached : Reached (some c) trace) (hinit : c.initialised = true) (hops : ops ≠ [])
    (hcount : ops.length ≤ BATCH_MAX_OPS)
    (hexec : Exec (servingBatch rs) trace (batch depth ops c) (some (some (result, c'))) trace') :
    ∃ ready c₁ trace₁,
      Exec (servingBatch rs) trace (spiPrepare depth (powerWake depth depth) c)
          (some (some (ready, c₁))) trace₁ ∧
        Sized c₁ ∧
        (ready = .ok () → Accepted c₁ ops → Explained (ops.map planEntry) rs →
          ∃ executed : UInt8, executed.toNat = rs.length ∧ result = .ok (executed, delivered ops rs)) := by
  unfold batch at hexec
  obtain ⟨_, _, _, hget, hexec⟩ := exec_of_seq hexec
  cases hget
  rw [if_neg (by simp [hinit]), if_neg (by simpa using hops), if_neg (by omega)] at hexec
  obtain ⟨ready, c₁, trace₁, hprepare, hrest⟩ := exec_of_seq hexec
  obtain ⟨hlink, hfit⟩ := linkInv_of_reached hreached
  have hprepare' := Library.Effect.exec_mono hprepare fun _ _ _ _ henv => henv.1
  have hkeeps := (upholds_linkInv depth).keeps_prepare c trace (hlink c rfl) hfit
  obtain ⟨-, -, hinv⟩ := wp_sound hprepare' hkeeps
  have hsized := (hinv _ _ rfl).toSized
  refine ⟨ready, c₁, trace₁, hprepare, hsized, ?_⟩
  rintro rfl haccepted hrs
  have hplan := haccepted.bounded hsized
  have hle := hrs.1.length_le
  obtain ⟨_, _, _, hget, hrest⟩ := exec_of_seq hrest
  cases hget
  have hfits : ¬((batchPayload ops).length > linkMaxPayload c₁ ∨
      worstReply (ops.map planEntry) > linkMaxPayload c₁) := by
    simpa using And.intro haccepted.request haccepted.reply
  rw [if_neg (by simp [haccepted.spi, haccepted.granted]), haccepted.planned] at hrest
  simp only [if_neg hfits] at hrest
  obtain ⟨ending, c₂, trace₂, hcore, hrest⟩ := exec_of_seq hrest
  obtain ⟨-, -, hended⟩ := wp_sound hcore (wp_core_batch ops hplan hrs haccepted.sendable)
  obtain rfl : ending = .delivered (encodeBatch rs) := hended _ _ rfl
  obtain ⟨_, _, _, hmodify, hrest⟩ := exec_of_seq hrest
  cases hmodify
  cases hrest
  have hsmall : rs.length < 256 := hle.trans_lt hplan.count
  refine ⟨(encodeBatch rs).getD 0 0, Nat.mod_eq_of_lt hsmall, ?_⟩
  rw [batchResults_encode ops hplan hrs.1]

-- Both walks over the reply agree with what the bridge answered, and nothing else gets through the
-- first one than results in the order of the operations, each of the shape that its operation and
-- status call for, which stop early only after a failure.
theorem batch_codec (ops : List BatchOp) :
    (∀ c, Sized c → Accepted c ops →
      (∀ rs, Produced (ops.map planEntry) rs →
        (∀ filler,
          batchReplyLen (ops.map planEntry) (encodeBatch rs ++ filler) = some (encodeBatch rs).length) ∧
          List.Forall₂ (fun (o : BatchOp) result => result.2.length ≤ o.replyCap) ops
            (delivered ops rs)) ∧
      ∀ p n, batchReplyLen (ops.map planEntry) p = some n ↔
        ∃ rs filler, Explained (ops.map planEntry) rs ∧ p = encodeBatch rs ++ filler ∧
          n = (encodeBatch rs).length) ∧
    ∀ depth c trace rs result c' trace', Reached (some c) trace → c.initialised = true → ops ≠ [] →
      ops.length ≤ BATCH_MAX_OPS →
      Exec (servingBatch rs) trace (batch depth ops c) (some (some (result, c'))) trace' →
      ∃ ready c₁ trace₁,
        Exec (servingBatch rs) trace (spiPrepare depth (powerWake depth depth) c)
            (some (some (ready, c₁))) trace₁ ∧
          Sized c₁ ∧
          (ready = .ok () → Accepted c₁ ops → Produced (ops.map planEntry) rs →
            ∃ executed : UInt8, executed.toNat = rs.length ∧ result = .ok (executed, delivered ops rs)) := by
  constructor
  · intro c hsized haccepted
    have hplan := haccepted.bounded hsized
    obtain ⟨-, hcaps⟩ := plan_of_planOps haccepted.planned
    refine ⟨fun rs hrs => ⟨batchReplyLen_encode hplan hrs.explained, ?_⟩, batchReplyLen_iff hplan⟩
    exact delivered_fits hcaps hrs.explained.1
  · intro depth c trace rs result c' trace' hreached hinit hops hcount hexec
    obtain ⟨ready, c₁, trace₁, hprepare, hsized, hresult⟩ :=
      result_of_accepted hreached hinit hops hcount hexec
    exact ⟨ready, c₁, trace₁, hprepare, hsized, fun hready haccepted hrs =>
      hresult hready haccepted hrs.explained⟩

-- A stream read, and two more operations, of which the first fails.
def mixedOps : List BatchOp :=
  [⟨CMD_ADC_STREAM_READ2, [0, 2], 16⟩, ⟨0x51, [1], 2⟩, ⟨CMD_PING, [], 0⟩]

def mixedAnswers : List SubReply := [⟨0, [7, 0, 0, 0, 0, 0, 0, 0, 1, 0x34, 0x12]⟩, ⟨0x05, []⟩]

-- A bridge that grants what it is asked for and answers a BATCH.
def batchHandler (rs : List SubReply) : Library.Effect.Handler (issuing busSig Ctx) Trace :=
  fun i trace =>
  let stamp : UInt8 := if i.state.seqLast = 1 then 0x20 else 0x10
  let frame :=
    if underWay trace = some CMD_BATCH then replyFrame stamp (encodeBatch rs) ++ [0xEE]
    else grantingReply (lastWritten trace)
  (respond frame i.cmd, if BusCmd.isQuiet i.cmd then trace else trace ++ [i])

theorem fresh_of_ne {c : Ctx} {status : UInt8} (hzero : status >>> 4 ≠ 0)
    (hne : status >>> 4 ≠ c.seqLast) : Fresh c status := by
  intro _
  unfold spiSeqClassify
  rw [if_neg fun h => hzero h.1, if_neg hne]

theorem servingBatch_batchHandler (rs : List SubReply) : ∀ i trace,
    servingBatch rs trace i (batchHandler rs i trace).1 (batchHandler rs i trace).2 := by
  rintro ⟨c, cmd⟩ trace
  refine ⟨rfl, ?_⟩
  cases cmd with
  | spiWrite frame => exact fun _ => rfl
  | spiRead len =>
      intro hbatch
      refine ⟨if c.seqLast = 1 then 0x20 else 0x10, [0xEE], ?_, ?_, ?_⟩
      · split
        · rfl
        · rfl
      · split
        · rename_i hlast
          exact fresh_of_ne (by decide) (by rw [hlast]; decide)
        · rename_i hlast
          exact fresh_of_ne (by decide) fun h => hlast h.symm
      · simp only [batchHandler, hbatch, if_true, respond]
  | _ => trivial

-- Nothing to do before the frame is built.
structure Idle (c : Ctx) : Prop where
  awake : c.powerAsleep = false
  negotiated : c.renegotiatePending = false
  attn : c.attnFaultPending = false

theorem spiPrepare_idle {depth : Nat} {wake : Drv Status} {c : Ctx} (h : Idle c) :
    spiPrepare depth wake c = .ret (some (.ok (), c)) := by
  obtain ⟨hawake, hnegotiated, hattn⟩ := h
  obtain ⟨_, spi, _, _, _, _, _, _, _, _, _, _, _, _, _, fault, _, _, renegotiate, _, _, _, _, asleep, _⟩ := c
  cases hawake
  cases hnegotiated
  cases hattn
  cases spi with
  | true => rfl
  | false => rfl

-- The link that `mixedOps` are sent over.
def mixedInit : Option (Status × Ctx) × Trace :=
  Library.Effect.Prog.run granting (initEx 2 1 true false 0 noHook (freshCtx true false 0 noHook)) []

def mixedLink : Ctx := (mixedInit.1.map Prod.snd).getD (freshCtx true false 0 noHook)

theorem reached_mixedLink : Reached (some mixedLink) mixedInit.2 := by
  have hsome : mixedInit.1.isSome := by decide +kernel
  obtain ⟨⟨result, c⟩, hout⟩ := Option.isSome_iff_exists.mp hsome
  have hallowed : ∀ i trace, recording trace i (granting i trace).1 (granting i trace).2 := fun _ _ => rfl
  have hexec : Exec recording [] (initEx 2 1 true false 0 noHook (freshCtx true false 0 noHook))
      (some mixedInit.1) mixedInit.2 := Library.Effect.exec_of_run hallowed _ []
  have hlink : mixedLink = c := by
    rw [mixedLink, hout]
    rfl
  have hargs : InitArgs true false 0 := ⟨.inl rfl, nofun⟩
  rw [hout] at hexec
  rw [hlink]
  exact .init .nothing hargs hexec

theorem accepted_mixed : Accepted mixedLink mixedOps :=
  ⟨by decide +kernel, by decide +kernel, by decide +kernel, by decide +kernel, by decide +kernel⟩

theorem batch_codec_mixed :
    ∃ result c' trace', Reached (some mixedLink) mixedInit.2 ∧
      Exec (servingBatch mixedAnswers) mixedInit.2 (batch 2 mixedOps mixedLink)
          (some (some (result, c'))) trace' ∧
        ∃ executed : UInt8, executed.toNat = 2 ∧
          result = .ok (executed, [(.ok (), [7, 0, 0, 0, 0, 0, 0, 0, 1, 0x34, 0x12]), (.error .io, []),
            (.error .notReady, [])]) := by
  have hsome : ((batch 2 mixedOps mixedLink).run (batchHandler mixedAnswers) mixedInit.2).1.isSome := by
    decide +kernel
  have hexec := Library.Effect.exec_of_run (servingBatch_batchHandler mixedAnswers) (batch 2 mixedOps mixedLink)
    mixedInit.2
  obtain ⟨⟨result, c'⟩, hout⟩ := Option.isSome_iff_exists.mp hsome
  rw [hout] at hexec
  obtain ⟨ready, c₁, trace₁, hprepare, -, hresult⟩ := (batch_codec mixedOps).2 2 mixedLink mixedInit.2
    mixedAnswers result c' _ reached_mixedLink (by decide +kernel) (by decide) (by decide) hexec
  rw [spiPrepare_idle ⟨by decide +kernel, by decide +kernel, by decide +kernel⟩] at hprepare
  obtain ⟨hready, -⟩ := Library.Effect.eq_of_exec_ret hprepare
  cases hready
  exact ⟨result, c', _, reached_mixedLink, hexec, hresult rfl accepted_mixed (by decide)⟩

-- The two PINGs of a batch, the first refused and the second answered all the same.
def pingOps : List BatchOp := [⟨CMD_PING, [], 0⟩, ⟨CMD_PING, [], 0⟩]

def batchLink : Ctx :=
  { freshCtx true false 0 noHook with
    granted := LINK_FEAT_BIG_FRAME ||| LINK_FEAT_BATCH, maxPayload := BIG_MAX_PAYLOAD_BYTES }

theorem not_produced_of_accepted :
    ¬∀ c ops p n, Sized c → Accepted c ops → batchReplyLen (ops.map planEntry) p = some n →
      ∃ rs filler, Produced (ops.map planEntry) rs ∧ p = encodeBatch rs ++ filler := by
  intro h
  have hsized : Sized batchLink := ⟨by decide, by decide, fun _ => by decide⟩
  have haccepted : Accepted batchLink pingOps := ⟨rfl, by decide, rfl, by decide, by decide⟩
  obtain ⟨rs, filler, hrs, hp⟩ := h batchLink pingOps [2, 0x01, 0, 0x00, 0] 5 hsized haccepted (by decide)
  cases rs with
  | nil => exact hrs.elim
  | cons r rs =>
      obtain ⟨-, -, hrest⟩ := hrs
      have hexecuted : 2 = UInt8.ofNat (rs.length + 1) := congrArg (fun p => p.getD 0 0) hp
      have hstatus : 1 = r.status := congrArg (fun p => p.getD 1 0) hp
      rw [if_neg (by simp [SubReply.code, ← hstatus]; decide)] at hrest
      subst hrest
      revert hexecuted
      decide

end AlpSdk.Gd32

import AlpSdk.Gd32Swd
import Mathlib.Data.Stream.Init

-- The target at the other end of the wires: its answers, and the pipelined access port.
namespace AlpSdk.Gd32Swd

open Library.Local
open Library.Effect (Env Exec Handler)

-- What the target answers to a request: OK, and whether the parity it sends with a word is right,
-- WAIT, or anything else.
inductive Answer where
  | ok (parity : Bool)
  | wait
  | other
  deriving DecidableEq

def Answer.ack : Answer → Ack
  | .ok _ => .ok
  | .wait => .wait
  | .other => .other

def Answer.parity : Answer → Bool
  | .ok parity => parity
  | _ => false

-- The memory behind the access port: a word read, and a word written.
structure Bus (M : Type) where
  read : M → UInt32 → UInt32 × M
  write : M → UInt32 → UInt32 → M

inductive Access where
  | read (addr word : UInt32)
  | write (addr word : UInt32)
  deriving DecidableEq

-- `answers` are those to come, and `accesses` those the access port has made. Of the registers of
-- the port only the two the driver uses after it has selected them are told.
structure Target (M : Type) where
  answers : Stream' Answer
  dp : UInt8 → UInt32
  tar : UInt32
  latched : UInt32
  memory : M
  accesses : List Access

namespace Target

variable {M : Type} (bus : Bus M) (t : Target M)

def next : Target M := { t with answers := t.answers.tail }

-- A read of DRW latches the word at TAR, and sends the one latched before.
def latch : Target M :=
  let (word, memory) := bus.read t.memory t.tar
  { t with latched := word, memory := memory, accesses := t.accesses ++ [.read t.tar word] }

def store (value : UInt32) : Target M :=
  { t with
    memory := bus.write t.memory t.tar value
    accesses := t.accesses ++ [.write t.tar value] }

def dataRead (ap : Bool) (addr : UInt8) : UInt32 × Target M :=
  if ap then (t.latched, if addr = AP_REG_DRW then t.latch bus else t)
  else (if addr = DP_REG_RDBUFF then t.latched else t.dp addr, t)

def dataWritten (ap : Bool) (addr : UInt8) (value : UInt32) : Target M :=
  if ap && addr == AP_REG_TAR then { t with tar := value }
  else if ap && addr == AP_REG_DRW then t.store bus value
  else t

-- An answer is used up with the acknowledge, or with the data that comes after an OK. The pads do
-- as they like.
def allows : (cmd : Cmd) → signature.Reply cmd → Target M → Prop
  | .ack, reply, t' =>
      reply = t.answers.head.ack ∧ t' = if t.answers.head.ack = .ok then t else t.next
  | .readData ap addr, reply, t' =>
      reply = ((t.next.dataRead bus ap addr).1, t.answers.head.parity) ∧
        t' = (t.next.dataRead bus ap addr).2
  | .writeData ap addr value, _, t' => t' = t.next.dataWritten bus ap addr value
  | _, _, t' => t' = t

end Target

def target {M : Type} (bus : Bus M) : Env (issuing signature Ctx) (Target M) :=
  fun t i reply t' => t.allows bus i.cmd reply t'

-- What a request meets that is made again on a WAIT, at most `rounds` times.
inductive Met where
  | ok (parity : Bool)
  | exhausted
  | refused
  deriving DecidableEq

def meet : ℕ → Stream' Answer → Met × Stream' Answer
  | 0, s => (.exhausted, s)
  | rounds + 1, s =>
      match s.head with
      | .ok parity => (.ok parity, s.tail)
      | .wait => meet rounds s.tail
      | .other => (.refused, s.tail)

-- SELECT, CSW and TAR are written.
def Addressed (s s' : Stream' Answer) : Prop :=
  ∃ s₁ s₂ p₁ p₂ p₃, meet MAX_WAIT_RETRIES s = (.ok p₁, s₁) ∧ meet MAX_WAIT_RETRIES s₁ = (.ok p₂, s₂) ∧
    meet MAX_WAIT_RETRIES s₂ = (.ok p₃, s')

-- The word is read, and fetched.
def FreshRead (s s' : Stream' Answer) : Prop :=
  ∃ s₁ s₂, Addressed s s₁ ∧ meet MAX_WAIT_RETRIES s₁ = (.ok true, s₂) ∧
    meet MAX_WAIT_RETRIES s₂ = (.ok true, s')

-- The read is answered with nothing but WAIT, and what is fetched is left from before it.
def StaleRead (s s' : Stream' Answer) : Prop :=
  ∃ s₁ s₂, Addressed s s₁ ∧ meet MAX_WAIT_RETRIES s₁ = (.exhausted, s₂) ∧
    meet MAX_WAIT_RETRIES s₂ = (.ok true, s')

-- The context, but for the direction of SWDIO.
def Ctx.driving (c : Ctx) (isOutput : Bool) : Ctx := { c with swdioIsOutput := isOutput }

section Transfers

variable {M : Type} {bus : Bus M} {c : Ctx} {t : Target M}

-- No invariant is asked of the target, and no recursion is cut.
abbrev Does {α : Type} (bus : Bus M) (m : Swd α) (Q : α → Ctx → Target M → Prop) (c : Ctx)
    (t : Target M) : Prop :=
  wp (target bus) (fun _ => True) False m Q c t

theorem does_swdioAsOutput {Q : Status → Ctx → Target M → Prop}
    (h : ∀ s isOutput, Q s (c.driving isOutput) t) : Does bus swdioAsOutput Q c t := by
  unfold swdioAsOutput
  apply wp_get_bind
  by_cases hout : c.swdioIsOutput
  · rw [if_pos hout]
    exact wp_pure trivial (h _ c.swdioIsOutput)
  · rw [if_neg hout]
    apply wp_issue_bind trivial
    rintro reply t' rfl
    cases reply with
    | error err => exact wp_pure trivial (h _ c.swdioIsOutput)
    | ok _ => exact wp_modify_bind (wp_pure trivial (h _ true))

theorem does_swdioAsInput {Q : Status → Ctx → Target M → Prop}
    (h : ∀ s isOutput, Q s (c.driving isOutput) t) : Does bus swdioAsInput Q c t := by
  unfold swdioAsInput
  apply wp_get_bind
  by_cases hout : c.swdioIsOutput
  · rw [if_neg (by simp [hout])]
    apply wp_issue_bind trivial
    rintro reply t' rfl
    cases reply with
    | error err => exact wp_pure trivial (h _ c.swdioIsOutput)
    | ok _ => exact wp_modify_bind (wp_pure trivial (h _ false))
  · rw [if_pos (by simp [hout])]
    exact wp_pure trivial (h _ c.swdioIsOutput)

-- A transfer, by the answer to it.
theorem does_swdXfer (hinit : c.initialised = true) (ap rnw : Bool) (addr : UInt8) (data : UInt32)
    {Q : Ack × UInt32 → Ctx → Target M → Prop}
    (hread : ∀ parity, t.answers.head = .ok parity → rnw = true → ∀ isOutput,
      Q (if parity then .ok else .other, (t.next.dataRead bus ap addr).1) (c.driving isOutput)
        (t.next.dataRead bus ap addr).2)
    (hwritten : ∀ parity, t.answers.head = .ok parity → rnw = false → ∀ isOutput,
      Q (.ok, data) (c.driving isOutput) (t.next.dataWritten bus ap addr data))
    (hother : t.answers.head.ack ≠ .ok → ∀ isOutput,
      Q (t.answers.head.ack, data) (c.driving isOutput) t.next) :
    Does bus (swdXfer ap rnw addr data) Q c t := by
  unfold swdXfer
  apply wp_get_bind
  rw [if_neg (by simp [hinit])]
  apply wp_bind
  apply does_swdioAsOutput
  intro _ isOutput
  apply wp_issue_bind trivial
  rintro _ t rfl
  apply wp_bind
  apply does_swdioAsInput
  intro _ isOutput'
  apply wp_issue_bind trivial
  rintro ack t' ⟨rfl, rfl⟩
  cases hans : t.answers.head with
  | ok parity =>
      rw [if_pos (show (Answer.ok parity).ack = .ok from rfl), if_pos (show (Answer.ok parity).ack = .ok from rfl)]
      cases rnw with
      | true =>
          rw [if_pos rfl]
          apply wp_issue_bind trivial
          rintro ⟨value, parity'⟩ t' ⟨hreply, rfl⟩
          obtain ⟨rfl, rfl⟩ := Prod.mk.inj hreply
          apply wp_bind
          apply does_swdioAsOutput
          intro _ isOutput''
          have hpost := hread parity hans rfl isOutput''
          rw [hans] at *
          exact wp_pure trivial hpost
      | false =>
          rw [if_neg (by decide)]
          apply wp_bind
          apply does_swdioAsOutput
          intro _ isOutput''
          apply wp_issue_bind trivial
          rintro _ t' rfl
          exact wp_pure trivial (hwritten parity hans rfl isOutput'')
  | wait =>
      rw [if_neg (by decide), if_neg (by decide)]
      apply wp_bind
      apply does_swdioAsOutput
      intro _ isOutput''
      rw [hans] at hother
      exact wp_pure trivial (hother (by decide) isOutput'')
  | other =>
      rw [if_neg (by decide), if_neg (by decide)]
      apply wp_bind
      apply does_swdioAsOutput
      intro _ isOutput''
      rw [hans] at hother
      exact wp_pure trivial (hother (by decide) isOutput'')

-- The target after the answers up to `s`.
def Target.upTo (t : Target M) (s : Stream' Answer) : Target M := { t with answers := s }

-- The retries of a write.
theorem does_write (hinit : c.initialised = true) (ap : Bool) (addr : UInt8) (value : UInt32)
    (rounds : ℕ) {Q : Except AlpError UInt32 → Ctx → Target M → Prop}
    (hok : ∀ parity s, meet rounds t.answers = (.ok parity, s) → ∀ isOutput,
      Q (.ok value) (c.driving isOutput) ((t.upTo s).dataWritten bus ap addr value))
    (hfail : ∀ met s, meet rounds t.answers = (met, s) → (∀ parity, met ≠ .ok parity) →
      ∀ err isOutput, Q (.error err) (c.driving isOutput) (t.upTo s)) :
    Does bus (retrying (swdXfer ap false addr value) rounds) Q c t := by
  induction rounds generalizing c t with
  | zero => exact wp_pure trivial (hfail _ _ rfl (by simp) _ c.swdioIsOutput)
  | succ rounds ih =>
      rw [retrying]
      apply wp_bind
      apply does_swdXfer hinit
      · simp
      · intro parity hans _ isOutput
        exact wp_pure trivial (hok parity t.answers.tail (by simp [meet, hans]) isOutput)
      · intro hack isOutput
        cases hans : t.answers.head with
        | ok parity => exact absurd (by rw [hans]; rfl) hack
        | other => exact wp_pure trivial (hfail .refused t.answers.tail (by simp [meet, hans]) (by simp) _ isOutput)
        | wait =>
            have hmeet : meet (rounds + 1) t.answers = meet rounds t.next.answers := by
              simp [meet, hans, Target.next]
            show Does bus (retrying (swdXfer ap false addr value) rounds) Q (c.driving isOutput) t.next
            apply ih (show (c.driving isOutput).initialised = true from hinit)
            · intro parity s hs isOutput'
              exact hok parity s (hmeet.trans hs) isOutput'
            · intro met s hs hmet err isOutput'
              exact hfail met s (hmeet.trans hs) hmet err isOutput'

-- The retries of a read of the debug port.
theorem does_readDp (hinit : c.initialised = true) (addr : UInt8) (rounds : ℕ)
    {Q : Except AlpError UInt32 → Ctx → Target M → Prop}
    (hok : ∀ s, meet rounds t.answers = (.ok true, s) → ∀ isOutput,
      Q (.ok (t.dataRead bus false addr).1) (c.driving isOutput) (t.upTo s))
    (hfail : ∀ met s, meet rounds t.answers = (met, s) → met ≠ .ok true →
      ∀ err isOutput, Q (.error err) (c.driving isOutput) (t.upTo s)) :
    Does bus (retrying (swdXfer false true addr 0) rounds) Q c t := by
  induction rounds generalizing c t with
  | zero => exact wp_pure trivial (hfail _ _ rfl (by simp) _ c.swdioIsOutput)
  | succ rounds ih =>
      rw [retrying]
      apply wp_bind
      apply does_swdXfer hinit
      · intro parity hans _ isOutput
        cases parity with
        | true => exact wp_pure trivial (hok t.answers.tail (by simp [meet, hans]) isOutput)
        | false =>
            exact wp_pure trivial (hfail (.ok false) t.answers.tail (by simp [meet, hans]) (by simp) _ isOutput)
      · simp
      · intro hack isOutput
        cases hans : t.answers.head with
        | ok parity => exact absurd (by rw [hans]; rfl) hack
        | other => exact wp_pure trivial (hfail .refused t.answers.tail (by simp [meet, hans]) (by simp) _ isOutput)
        | wait =>
            have hmeet : meet (rounds + 1) t.answers = meet rounds t.next.answers := by
              simp [meet, hans, Target.next]
            show Does bus (retrying (swdXfer false true addr 0) rounds) Q (c.driving isOutput) t.next
            apply ih (show (c.driving isOutput).initialised = true from hinit)
            · intro s hs isOutput'
              exact hok s (hmeet.trans hs) isOutput'
            · intro met s hs hmet err isOutput'
              exact hfail met s (hmeet.trans hs) hmet err isOutput'

-- The dummy read, which a target that is not ready is let off.
theorem does_dummyReadAp (hinit : c.initialised = true) (rounds : ℕ)
    {Q : Status → Ctx → Target M → Prop}
    (hok : ∀ s, meet rounds t.answers = (.ok true, s) → ∀ isOutput,
      Q (.ok ()) (c.driving isOutput) ((t.upTo s).latch bus))
    (hexhausted : ∀ s, meet rounds t.answers = (.exhausted, s) → ∀ isOutput,
      Q (.ok ()) (c.driving isOutput) (t.upTo s))
    (hfail : ∀ met s, meet rounds t.answers = (met, s) → met ≠ .ok true → met ≠ .exhausted →
      ∀ err isOutput t', Q (.error err) (c.driving isOutput) t') :
    Does bus (dummyReadAp AP_REG_DRW rounds) Q c t := by
  induction rounds generalizing c t with
  | zero => exact wp_pure trivial (hexhausted _ rfl c.swdioIsOutput)
  | succ rounds ih =>
      rw [dummyReadAp]
      apply wp_bind
      apply does_swdXfer hinit
      · intro parity hans _ isOutput
        cases parity with
        | true => exact wp_pure trivial (hok t.answers.tail (by simp [meet, hans]) isOutput)
        | false =>
            exact wp_pure trivial
              (hfail (.ok false) t.answers.tail (by simp [meet, hans]) (by simp) (by simp) _ isOutput _)
      · simp
      · intro hack isOutput
        cases hans : t.answers.head with
        | ok parity => exact absurd (by rw [hans]; rfl) hack
        | other =>
            exact wp_pure trivial
              (hfail .refused t.answers.tail (by simp [meet, hans]) (by simp) (by simp) _ isOutput _)
        | wait =>
            have hmeet : meet (rounds + 1) t.answers = meet rounds t.next.answers := by
              simp [meet, hans, Target.next]
            show Does bus (dummyReadAp AP_REG_DRW rounds) Q (c.driving isOutput) t.next
            apply ih (show (c.driving isOutput).initialised = true from hinit)
            · intro s hs isOutput'
              exact hok s (hmeet.trans hs) isOutput'
            · intro s hs isOutput'
              exact hexhausted s (hmeet.trans hs) isOutput'
            · intro met s hs hmet hmet' err isOutput' t'
              exact hfail met s (hmeet.trans hs) hmet hmet' err isOutput' t'

end Transfers

section Memory

variable {M : Type} {bus : Bus M} {c : Ctx} {t : Target M}

theorem does_swdMemAddress (hinit : c.initialised = true) (addr : UInt32) {Q : Status → Ctx → Target M → Prop}
    (hok : ∀ s, Addressed t.answers s → ∀ isOutput,
      Q (.ok ()) (c.driving isOutput) { t with answers := s, tar := addr })
    (hfail : (∀ s, ¬ Addressed t.answers s) → ∀ err isOutput s,
      Q (.error err) (c.driving isOutput) (t.upTo s)) :
    Does bus (swdMemAddress addr) Q c t := by
  unfold swdMemAddress swdSelectAp swdWriteDp swdWriteAp
  apply wp_bind
  apply does_write hinit
  · intro p₁ s₁ h₁ isOutput₁
    apply wp_bind
    apply does_write (show (c.driving isOutput₁).initialised = true from hinit)
    · intro p₂ s₂ h₂ isOutput₂
      apply wp_bind
      apply does_write (show (c.driving isOutput₂).initialised = true from hinit)
      · intro p₃ s₃ h₃ isOutput₃
        exact wp_pure trivial (hok s₃ ⟨s₁, s₂, p₁, p₂, p₃, h₁, h₂, h₃⟩ isOutput₃)
      · intro met s₃ h₃ hmet err isOutput₃
        refine wp_pure trivial (hfail ?_ err isOutput₃ s₃)
        rintro s ⟨s₁', s₂', p₁', p₂', p₃', h₁', h₂', h₃'⟩
        obtain ⟨-, rfl⟩ := Prod.mk.inj (h₁.symm.trans h₁')
        obtain ⟨-, rfl⟩ := Prod.mk.inj (h₂.symm.trans h₂')
        exact hmet p₃' (Prod.mk.inj (h₃.symm.trans h₃')).1
    · intro met s₂ h₂ hmet err isOutput₂
      refine wp_pure trivial (hfail ?_ err isOutput₂ s₂)
      rintro s ⟨s₁', s₂', p₁', p₂', p₃', h₁', h₂', h₃'⟩
      obtain ⟨-, rfl⟩ := Prod.mk.inj (h₁.symm.trans h₁')
      exact hmet p₂' (Prod.mk.inj (h₂.symm.trans h₂')).1
  · intro met s₁ h₁ hmet err isOutput₁
    refine wp_pure trivial (hfail ?_ err isOutput₁ s₁)
    rintro s ⟨s₁', s₂', p₁', p₂', p₃', h₁', h₂', h₃'⟩
    exact hmet p₁' (Prod.mk.inj (h₁.symm.trans h₁')).1

theorem addressed_unique {s s₁ s₂ : Stream' Answer} (h₁ : Addressed s s₁) (h₂ : Addressed s s₂) : s₁ = s₂ := by
  obtain ⟨a, b, p₁, p₂, p₃, ha, hb, hs⟩ := h₁
  obtain ⟨a', b', q₁, q₂, q₃, ha', hb', hs'⟩ := h₂
  obtain ⟨-, rfl⟩ := Prod.mk.inj (ha.symm.trans ha')
  obtain ⟨-, rfl⟩ := Prod.mk.inj (hb.symm.trans hb')
  exact (Prod.mk.inj (hs.symm.trans hs')).2

-- The target after a word is read.
def Target.wordRead (bus : Bus M) (t : Target M) (addr : UInt32) (s : Stream' Answer) : Target M :=
  { t with
    answers := s
    tar := addr
    latched := (bus.read t.memory addr).1
    memory := (bus.read t.memory addr).2
    accesses := t.accesses ++ [.read addr (bus.read t.memory addr).1] }

-- A read gives the word, or the one that was latched before, or fails.
theorem does_swdMemRead32 (hinit : c.initialised = true) (addr : UInt32)
    {Q : Except AlpError UInt32 → Ctx → Target M → Prop}
    (hfresh : ∀ s, FreshRead t.answers s → ∀ isOutput,
      Q (.ok (bus.read t.memory addr).1) (c.driving isOutput) (t.wordRead bus addr s))
    (hstale : ∀ s, StaleRead t.answers s → ∀ isOutput,
      Q (.ok t.latched) (c.driving isOutput) { t with answers := s, tar := addr })
    (hfail : (∀ s, ¬ FreshRead t.answers s ∧ ¬ StaleRead t.answers s) → ∀ err isOutput t',
      Q (.error err) (c.driving isOutput) t') :
    Does bus (swdMemRead32 addr) Q c t := by
  unfold swdMemRead32 swdReadAp swdReadDp
  apply wp_bind
  apply does_swdMemAddress hinit
  · intro s₁ h₁ isOutput₁
    apply wp_bind
    apply does_dummyReadAp (show (c.driving isOutput₁).initialised = true from hinit)
    · intro s₂ h₂ isOutput₂
      apply does_readDp (show (c.driving isOutput₂).initialised = true from hinit)
      · intro s₃ h₃ isOutput₃
        exact hfresh s₃ ⟨s₁, s₂, h₁, h₂, h₃⟩ isOutput₃
      · intro met s₃ h₃ hmet err isOutput₃
        refine hfail (fun s => ⟨?_, ?_⟩) err isOutput₃ _
        · rintro ⟨s₁', s₂', h₁', h₂', h₃'⟩
          obtain rfl := addressed_unique h₁ h₁'
          obtain ⟨-, rfl⟩ := Prod.mk.inj (h₂.symm.trans h₂')
          exact hmet (Prod.mk.inj (h₃.symm.trans h₃')).1
        · rintro ⟨s₁', s₂', h₁', h₂', -⟩
          obtain rfl := addressed_unique h₁ h₁'
          exact absurd (Prod.mk.inj (h₂.symm.trans h₂')).1 (by decide)
    · intro s₂ h₂ isOutput₂
      apply does_readDp (show (c.driving isOutput₂).initialised = true from hinit)
      · intro s₃ h₃ isOutput₃
        exact hstale s₃ ⟨s₁, s₂, h₁, h₂, h₃⟩ isOutput₃
      · intro met s₃ h₃ hmet err isOutput₃
        refine hfail (fun s => ⟨?_, ?_⟩) err isOutput₃ _
        · rintro ⟨s₁', s₂', h₁', h₂', -⟩
          obtain rfl := addressed_unique h₁ h₁'
          exact absurd (Prod.mk.inj (h₂.symm.trans h₂')).1 (by decide)
        · rintro ⟨s₁', s₂', h₁', h₂', h₃'⟩
          obtain rfl := addressed_unique h₁ h₁'
          obtain ⟨-, rfl⟩ := Prod.mk.inj (h₂.symm.trans h₂')
          exact hmet (Prod.mk.inj (h₃.symm.trans h₃')).1
    · intro met s₂ h₂ hmet hmet' err isOutput₂ t'
      refine wp_pure trivial (hfail (fun s => ⟨?_, ?_⟩) err isOutput₂ t')
      · rintro ⟨s₁', s₂', h₁', h₂', -⟩
        obtain rfl := addressed_unique h₁ h₁'
        exact hmet (Prod.mk.inj (h₂.symm.trans h₂')).1
      · rintro ⟨s₁', s₂', h₁', h₂', -⟩
        obtain rfl := addressed_unique h₁ h₁'
        exact hmet' (Prod.mk.inj (h₂.symm.trans h₂')).1
  · intro hnone err isOutput₁ s₁
    refine wp_pure trivial (hfail (fun s => ⟨?_, ?_⟩) err isOutput₁ _)
    · rintro ⟨s₁', -, h₁', -⟩
      exact hnone s₁' h₁'
    · rintro ⟨s₁', -, h₁', -⟩
      exact hnone s₁' h₁'

theorem readsFresh_unique {s s₁ s₂ : Stream' Answer} (h₁ : FreshRead s s₁) (h₂ : FreshRead s s₂) :
    s₁ = s₂ := by
  obtain ⟨a, b, ha, hb, hs⟩ := h₁
  obtain ⟨a', b', ha', hb', hs'⟩ := h₂
  obtain rfl := addressed_unique ha ha'
  obtain ⟨-, rfl⟩ := Prod.mk.inj (hb.symm.trans hb')
  exact (Prod.mk.inj (hs.symm.trans hs')).2

theorem not_stale_of_fresh {s s₁ s₂ : Stream' Answer} (h₁ : FreshRead s s₁) (h₂ : StaleRead s s₂) : False := by
  obtain ⟨a, b, ha, hb, -⟩ := h₁
  obtain ⟨a', b', ha', hb', -⟩ := h₂
  obtain rfl := addressed_unique ha ha'
  exact absurd (Prod.mk.inj (hb.symm.trans hb')).1 (by decide)

-- Before `init`, a read fails at its first transfer.
theorem does_uninitialised (hinit : c.initialised = false) (addr : UInt32)
    {Q : Except AlpError UInt32 → Ctx → Target M → Prop} (h : ∀ err, Q (.error err) c t) :
    Does bus (swdMemRead32 addr) Q c t := by
  unfold swdMemRead32 swdMemAddress swdSelectAp swdWriteDp
  rw [show MAX_WAIT_RETRIES = 15 + 1 from rfl, retrying]
  unfold swdXfer
  apply wp_bind
  apply wp_bind
  apply wp_bind
  apply wp_get_bind
  rw [if_pos (by simp [hinit])]
  exact wp_pure trivial (wp_pure trivial (wp_pure trivial (wp_pure trivial (h _))))

end Memory

end AlpSdk.Gd32Swd

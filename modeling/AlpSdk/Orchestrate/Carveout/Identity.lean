import AlpSdk.Orchestrate.Carveout.Theorems

namespace AlpSdk.Orchestrate

def oks (outs : List ResolvedCarveOut) : List ResolvedCarveOut :=
  outs.filter fun out => out.status = .ok

-- No two carve-outs share an endpoint id or a channel, and a channel that an entry gets is
-- reserved for nobody else.
structure Identified (project : BoardProject) (outs : List ResolvedCarveOut) : Prop where
  endpoints : ((oks outs).flatMap fun out => [out.srcEpt, out.dstEpt]).Nodup
  channels : ((oks outs).map (·.mailboxChannel)).Nodup
  listed : ∀ out ∈ oks outs, ∃ ch ∈ project.mailbox.channels, ch.id = out.mailboxChannel
  reserved : ∀ out ∈ oks outs, ∀ ch ∈ project.mailbox.channels, ch.id = out.mailboxChannel →
    ch.reservedFor = some "app" ∨ ch.reservedFor = some out.name

section Contenders

variable (project : BoardProject)

-- The mailbox does not block the entry, and one of the passes has placed it.
def contends (s : Placing) (indexed : IpcEntry × Nat) : Bool :=
  mailboxBlocked project indexed.1 = none &&
    match s.placement indexed.2 with
    | some (.ok _) => true
    | _ => false

def firstOfLowByte (seen : List Nat) : List IpcEntry → List IpcEntry
  | [] => []
  | entry :: rest =>
      if lowByte entry ∈ seen then firstOfLowByte seen rest
      else entry :: firstOfLowByte (lowByte entry :: seen) rest

-- The entries that reach the mailbox: placed, and the first of their low byte.
def contenders (s : Placing) : List IpcEntry :=
  firstOfLowByte [] (((sortedEntries project).zipIdx.filter (contends project s)).map Prod.fst)

def ownChannel (entry : IpcEntry) : Option Channel :=
  project.mailbox.channels.find? (·.reservedFor = some entry.name)

-- The app channels that no entry owns by its name, each once.
def freeChannels (claimed : List Int) : List Int :=
  (((project.mailbox.channels.filter fun ch =>
    ch.reservedFor = some "app" ∧ ch.id ∉ claimed).map (·.id)).dedup).insertionSort (· ≤ ·)

-- The contenders for which there is a channel, with `free` app channels left.
def served : List IpcEntry → Nat → List IpcEntry
  | [], _ => []
  | entry :: rest, free =>
      if (ownChannel project entry).isSome then entry :: served rest free
      else
        match free with
        | 0 => served rest 0
        | free + 1 => entry :: served rest free

def servedEntries (s : Placing) : List IpcEntry :=
  served project (contenders project s) (freeChannels project (claimedUpFront project)).length

-- No two of the entries that get a channel have neighbouring low bytes or own rows of one id,
-- and no row of a channel that is handed out names another owner.
structure NoClash (entries : List IpcEntry) : Prop where
  endpoints : ∀ entry ∈ entries, ∀ entry' ∈ entries, lowByte entry' ≠ lowByte entry + 1
  channels : entries.Pairwise fun entry entry' => ∀ ch ch',
    ownChannel project entry = some ch → ownChannel project entry' = some ch' → ch.id ≠ ch'.id
  own : ∀ entry ∈ entries, ∀ ch, ownChannel project entry = some ch →
    ∀ row ∈ project.mailbox.channels, row.id = ch.id →
      row.reservedFor = some "app" ∨ row.reservedFor = some entry.name
  app : ∀ id ∈ (freeChannels project (claimedUpFront project)).take
      (entries.countP fun entry => ownChannel project entry = none),
    ∀ row ∈ project.mailbox.channels, row.id = id → row.reservedFor = some "app"

-- The channels the loop hands to the contenders.
def assign : List IpcEntry → List Int → List (IpcEntry × Int)
  | [], _ => []
  | entry :: rest, free =>
      match ownChannel project entry with
      | some ch => (entry, ch.id) :: assign rest free
      | none =>
          match free with
          | [] => assign rest []
          | first :: free => (entry, first) :: assign rest free

end Contenders

variable {project : BoardProject} {entry : IpcEntry} {entries : List IpcEntry} {free : List Int}
  {claimed : List Int} {s : Placing}

theorem firstOfLowByte_seen {seen : List Nat} (h : lowByte entry ∈ seen) :
    firstOfLowByte seen (entry :: entries) = firstOfLowByte seen entries := by
  rw [firstOfLowByte, if_pos h]

theorem firstOfLowByte_new {seen : List Nat} (h : lowByte entry ∉ seen) :
    firstOfLowByte seen (entry :: entries) =
      entry :: firstOfLowByte (lowByte entry :: seen) entries := by
  rw [firstOfLowByte, if_neg h]

section Assign

theorem assign_fst (entries : List IpcEntry) (free : List Int) :
    (assign project entries free).map Prod.fst = served project entries free.length := by
  induction entries generalizing free with
  | nil => rfl
  | cons entry rest ih =>
      cases hown : ownChannel project entry with
      | some ch => simp [assign, served, hown, ih]
      | none =>
          cases free with
          | nil => simpa [assign, served, hown] using ih []
          | cons first free => simp [assign, served, hown, ih]

theorem mem_served {id : Int} (hmem : (entry, id) ∈ assign project entries free) :
    entry ∈ served project entries free.length := by
  rw [← assign_fst]
  exact List.mem_map.mpr ⟨(entry, id), hmem, rfl⟩

theorem served_sublist (project : BoardProject) (entries : List IpcEntry) (free : Nat) :
    (served project entries free).Sublist entries := by
  induction entries generalizing free with
  | nil => exact List.Sublist.refl _
  | cons entry rest ih =>
      unfold served
      split
      · exact (ih free).cons_cons entry
      · cases free with
        | zero => exact (ih 0).cons entry
        | succ free => exact (ih free).cons_cons entry

-- Whoever owns a row gets its channel; the others get the app channels in turn.
theorem assign_own {id : Int} {ch : Channel} (hmem : (entry, id) ∈ assign project entries free)
    (hown : ownChannel project entry = some ch) : id = ch.id := by
  induction entries generalizing free with
  | nil => cases hmem
  | cons first rest ih =>
      cases hfirst : ownChannel project first with
      | some row =>
          simp only [assign, hfirst, List.mem_cons, Prod.mk.injEq] at hmem
          rcases hmem with ⟨rfl, rfl⟩ | hrest
          · rw [hown] at hfirst
            cases hfirst
            rfl
          · exact ih hrest
      | none =>
          cases free with
          | nil =>
              simp only [assign, hfirst] at hmem
              exact ih hmem
          | cons next free =>
              simp only [assign, hfirst, List.mem_cons, Prod.mk.injEq] at hmem
              rcases hmem with ⟨rfl, rfl⟩ | hrest
              · rw [hown] at hfirst
                cases hfirst
              · exact ih hrest

theorem assign_app (entries : List IpcEntry) (free : List Int) :
    ((assign project entries free).filter fun pair => ownChannel project pair.1 = none).map
        Prod.snd =
      free.take ((served project entries free.length).countP fun entry =>
        ownChannel project entry = none) := by
  induction entries generalizing free with
  | nil => simp [assign, served]
  | cons entry rest ih =>
      cases hown : ownChannel project entry with
      | some ch => simpa [assign, served, hown] using ih free
      | none =>
          cases free with
          | nil => simpa [assign, served, hown] using ih []
          | cons first free => simpa [assign, served, hown] using ih free

theorem assign_mem {id : Int} (hmem : (entry, id) ∈ assign project entries free) :
    (∃ ch, ownChannel project entry = some ch ∧ id = ch.id) ∨
      ownChannel project entry = none ∧ id ∈ free := by
  cases hown : ownChannel project entry with
  | some ch => exact .inl ⟨ch, rfl, assign_own hmem hown⟩
  | none =>
      right
      have hin : id ∈ ((assign project entries free).filter fun pair =>
          ownChannel project pair.1 = none).map Prod.snd :=
        List.mem_map.mpr ⟨(entry, id), List.mem_filter.mpr ⟨hmem, by simpa using hown⟩, rfl⟩
      rw [assign_app] at hin
      exact ⟨rfl, List.mem_of_mem_take hin⟩

theorem assign_of_own {ch : Channel} (hmem : entry ∈ served project entries free.length)
    (hown : ownChannel project entry = some ch) : (entry, ch.id) ∈ assign project entries free := by
  rw [← assign_fst] at hmem
  obtain ⟨⟨e, id⟩, hpair, rfl⟩ := List.mem_map.mp hmem
  rw [← assign_own hpair hown]
  exact hpair

-- Own channels are no app channels that are left, so only two own channels can be the same.
theorem assign_nodup (hfree : free.Nodup)
    (hown : ∀ entry ∈ entries, ∀ ch, ownChannel project entry = some ch → ch.id ∉ free) :
    ((assign project entries free).map Prod.snd).Nodup ↔
      (served project entries free.length).Pairwise fun entry entry' => ∀ ch ch',
        ownChannel project entry = some ch → ownChannel project entry' = some ch' →
          ch.id ≠ ch'.id := by
  induction entries generalizing free with
  | nil => simp [assign, served]
  | cons entry rest ih =>
      have hrest : ∀ e ∈ rest, ∀ ch, ownChannel project e = some ch → ch.id ∉ free :=
        fun e he => hown e (List.mem_cons_of_mem _ he)
      cases hch : ownChannel project entry with
      | some ch =>
          have hnot : ch.id ∉ free := hown entry List.mem_cons_self ch hch
          simp only [assign, served, hch, Option.isSome_some, if_true, List.map_cons,
            List.nodup_cons, List.pairwise_cons, ih hfree hrest]
          refine and_congr_left fun _ => ?_
          constructor
          · intro hout e he ch₁ ch₂ heq₁ heq₂ hid
            cases heq₁
            exact hout (List.mem_map.mpr ⟨(e, ch₂.id), assign_of_own he heq₂, hid.symm⟩)
          · intro hall hout
            obtain ⟨⟨e, id⟩, hpair, rfl⟩ := List.mem_map.mp hout
            rcases assign_mem hpair with ⟨ch', hch', hid⟩ | ⟨-, hin⟩
            · exact hall e (mem_served hpair) ch ch' rfl hch' hid
            · exact hnot hin
      | none =>
          cases free with
          | nil => simpa [assign, served, hch] using ih hfree hrest
          | cons first free =>
              obtain ⟨hfirst, hfree'⟩ := List.nodup_cons.mp hfree
              have hrest' : ∀ e ∈ rest, ∀ ch, ownChannel project e = some ch → ch.id ∉ free :=
                fun e he ch h hin => hrest e he ch h (List.mem_cons_of_mem _ hin)
              have hout : first ∉ (assign project rest free).map Prod.snd := by
                intro hin
                obtain ⟨⟨e, id⟩, hpair, rfl⟩ := List.mem_map.mp hin
                rcases assign_mem hpair with ⟨ch', hch', hid⟩ | ⟨-, hmem⟩
                · have he := served_sublist project rest free.length |>.subset (mem_served hpair)
                  exact hrest e he ch' hch' (hid ▸ List.mem_cons_self)
                · exact hfirst hmem
              simp [assign, served, hch, ih hfree' hrest', hout]

end Assign

section Free

theorem mem_freeChannels {id : Int} : id ∈ freeChannels project claimed ↔
    (∃ ch ∈ project.mailbox.channels, ch.reservedFor = some "app" ∧ ch.id = id) ∧ id ∉ claimed := by
  simp only [freeChannels, List.mem_insertionSort, List.mem_dedup, List.mem_map, List.mem_filter,
    decide_eq_true_eq]
  constructor
  · rintro ⟨ch, ⟨hch, happ, hnot⟩, rfl⟩
    exact ⟨⟨ch, hch, happ, rfl⟩, hnot⟩
  · rintro ⟨⟨ch, hch, happ, rfl⟩, hnot⟩
    exact ⟨ch, ⟨hch, happ, hnot⟩, rfl⟩

theorem freeChannels_sorted : (freeChannels project claimed).Pairwise (· ≤ ·) :=
  List.pairwise_insertionSort _ _

theorem freeChannels_nodup : (freeChannels project claimed).Nodup :=
  (List.perm_insertionSort _ _).nodup_iff.mpr (List.nodup_dedup _)

theorem freeChannels_eq {l : List Int} (hsorted : l.Pairwise (· ≤ ·)) (hnodup : l.Nodup)
    (hmem : ∀ id, id ∈ l ↔ id ∈ freeChannels project claimed) :
    freeChannels project claimed = l := by
  have hperm := (List.perm_ext_iff_of_nodup hnodup freeChannels_nodup).mpr hmem
  exact (hperm.eq_of_pairwise' hsorted freeChannels_sorted).symm

theorem freeChannels_claimed {id : Int} (h : id ∈ claimed) :
    freeChannels project (id :: claimed) = freeChannels project claimed := by
  refine freeChannels_eq freeChannels_sorted freeChannels_nodup fun x => ?_
  simp only [mem_freeChannels, List.mem_cons, not_or]
  refine and_congr_right fun _ => ⟨fun hx => ⟨fun heq => hx (heq ▸ h), hx⟩, And.right⟩

theorem freeChannels_cons {first : Int} {rest : List Int}
    (h : freeChannels project claimed = first :: rest) :
    freeChannels project (first :: claimed) = rest := by
  have hsorted : (first :: rest).Pairwise (· ≤ ·) := h ▸ freeChannels_sorted
  have hnodup : (first :: rest).Nodup := h ▸ freeChannels_nodup
  refine freeChannels_eq hsorted.of_cons hnodup.of_cons fun x => ?_
  have hx : x ∈ freeChannels project claimed ↔ x = first ∨ x ∈ rest := by rw [h, List.mem_cons]
  have hnot := (List.nodup_cons.mp hnodup).1
  rw [mem_freeChannels] at hx ⊢
  simp only [List.mem_cons, not_or]
  constructor
  · intro hin
    obtain ⟨happ, hfresh⟩ := hx.mpr (.inr hin)
    exact ⟨happ, fun heq => hnot (heq ▸ hin), hfresh⟩
  · rintro ⟨happ, hne, hfresh⟩
    exact (hx.mp ⟨happ, hfresh⟩).resolve_left hne

-- Two sorted lists with the same elements begin alike.
theorem head?_eq_of_sorted {l l' : List Int} (hl : l.Pairwise (· ≤ ·)) (hl' : l'.Pairwise (· ≤ ·))
    (hmem : ∀ x, x ∈ l ↔ x ∈ l') : l.head? = l'.head? := by
  cases l with
  | nil =>
      cases l' with
      | nil => rfl
      | cons y l' => exact absurd ((hmem y).mpr List.mem_cons_self) List.not_mem_nil
  | cons x l =>
      cases l' with
      | nil => exact absurd ((hmem x).mp List.mem_cons_self) List.not_mem_nil
      | cons y l' =>
          have hle : x ≤ y := by
            rcases List.mem_cons.mp ((hmem y).mpr List.mem_cons_self) with h | h
            · exact h.ge
            · exact (List.pairwise_cons.mp hl).1 y h
          have hge : y ≤ x := by
            rcases List.mem_cons.mp ((hmem x).mp List.mem_cons_self) with h | h
            · exact h.ge
            · exact (List.pairwise_cons.mp hl').1 x h
          exact congrArg some (le_antisymm hle hge)

-- The lowest id left is the first of the free channels, however often a row repeats it.
theorem resolveMailboxChannel_own {ch : Channel} (hown : ownChannel project entry = some ch) :
    resolveMailboxChannel project entry.name claimed = .ok ch.id := by
  unfold ownChannel at hown
  simp only [resolveMailboxChannel, hown]

theorem resolveMailboxChannel_app (hown : ownChannel project entry = none) :
    resolveMailboxChannel project entry.name claimed =
      match (freeChannels project claimed).head? with
      | some first => .ok first
      | none => .error (.noMailboxChannel (project.mailbox.channels.map (·.reservedFor)).dedup) := by
  unfold ownChannel at hown
  simp only [resolveMailboxChannel, hown]
  have hfree : (freeChannels project claimed).Pairwise (· ≤ ·) := freeChannels_sorted
  have hhead := head?_eq_of_sorted (List.pairwise_insertionSort (· ≤ ·)
    ((project.mailbox.channels.filter fun ch =>
      ch.reservedFor = some "app" ∧ ch.id ∉ claimed).map (·.id)))
    hfree fun id => by
      rw [freeChannels, List.mem_insertionSort, List.mem_insertionSort, List.mem_dedup]
  rw [← hhead]
  split
  next h => rw [h]; rfl
  next h => rw [h]; rfl

end Free

section Emission

-- What the claim looks at of an entry that is ok.
def identity (out : ResolvedCarveOut) : String × Nat × Nat × Int :=
  (out.name, out.srcEpt, out.dstEpt, out.mailboxChannel)

def assigned (pair : IpcEntry × Int) : String × Nat × Nat × Int :=
  (pair.1.name, 0x400 ||| lowByte pair.1, (0x400 ||| lowByte pair.1) + 1, pair.2)

theorem oks_cons_blocked {outs : List ResolvedCarveOut} {reason : Reason} :
    oks (blockedCarveOut entry reason :: outs) = oks outs := by
  simp [oks, blockedCarveOut]

theorem lookup_isSome_iff (seen : List (Nat × String)) (low : Nat) :
    (seen.lookup low).isSome ↔ low ∈ seen.map Prod.fst := by
  induction seen with
  | nil => simp
  | cons first rest ih =>
      obtain ⟨b, name⟩ := first
      by_cases h : low = b
      · simp [h]
      · have hb : (low == b) = false := by simpa using h
        simp [List.lookup_cons, hb, ih, h]

theorem ownChannel_claimed (hmem : entry ∈ sortedEntries project) {ch : Channel}
    (hown : ownChannel project entry = some ch) : ch.id ∈ claimedUpFront project := by
  refine List.mem_map.mpr ⟨ch, List.mem_filter.mpr ⟨List.mem_of_find?_eq_some hown, ?_⟩, rfl⟩
  have htag := List.find?_some hown
  simp only [decide_eq_true_eq] at htag
  exact List.any_eq_true.mpr ⟨entry, hmem, by simpa using htag⟩

-- What the loop does with one entry.
theorem emitOne_cases (project : BoardProject) (s : Placing) (entry : IpcEntry) (st : Emitting)
    (index : Nat) :
    let low := lowByte entry
    let seen := { st with seenLowBytes := (low, entry.name) :: st.seenLowBytes }
    let out := emitOne project s st entry index
    (contends project s (entry, index) = false ∨ low ∈ st.seenLowBytes.map Prod.fst) ∧
        (∃ reason, out = (st, blockedCarveOut entry reason)) ∨
      contends project s (entry, index) = true ∧ low ∉ st.seenLowBytes.map Prod.fst ∧
        ((∃ reason, resolveMailboxChannel project entry.name st.claimedChannels = .error reason ∧
            out = (seen, blockedCarveOut entry reason)) ∨
          ∃ mbox, resolveMailboxChannel project entry.name st.claimedChannels = .ok mbox ∧
            out.1 = { seen with claimedChannels := mbox :: st.claimedChannels } ∧
            out.2.status = .ok ∧ identity out.2 = assigned (entry, mbox)) := by
  intro low seen out
  have hseen := lookup_isSome_iff st.seenLowBytes low
  cases hblocked : mailboxBlocked project entry with
  | some reason =>
      refine .inl ⟨.inl ?_, reason, ?_⟩
      · simp [contends, hblocked]
      · simp [out, emitOne, hblocked]
  | none =>
      rcases hplaced : s.placement index with _ | reason | ⟨chosen, base⟩
      · refine .inl ⟨.inl ?_, .noRegion, ?_⟩
        · simp [contends, hplaced]
        · simp [out, emitOne, hblocked, hplaced]
      · refine .inl ⟨.inl ?_, reason, ?_⟩
        · simp [contends, hplaced]
        · simp [out, emitOne, hblocked, hplaced]
      · have hcontends : contends project s (entry, index) = true := by
          simp [contends, hblocked, hplaced]
        cases hlookup : st.seenLowBytes.lookup low with
        | some prior =>
            refine .inl ⟨.inr (hseen.mp (by rw [hlookup]; rfl)), .endpointIdCollision low prior, ?_⟩
            simp only [out, emitOne, hblocked, hplaced]
            simp only [low] at hlookup
            rw [hlookup]
        | none =>
            have hnot : low ∉ st.seenLowBytes.map Prod.fst := fun h => by
              have hsome := hseen.mpr h
              rw [hlookup] at hsome
              cases hsome
            refine .inr ⟨hcontends, hnot, ?_⟩
            simp only [low] at hlookup
            cases hmbox : resolveMailboxChannel project entry.name st.claimedChannels with
            | error reason =>
                refine .inl ⟨reason, rfl, ?_⟩
                simp only [out, emitOne, hblocked, hplaced, hlookup, hmbox]
                rfl
            | ok mbox =>
                refine .inr ⟨mbox, rfl, ?_⟩
                simp only [out, emitOne, hblocked, hplaced, hlookup, hmbox]
                exact ⟨rfl, trivial, rfl⟩

theorem emit_oks (l : List (IpcEntry × Nat)) (st : Emitting)
    (hl : ∀ x ∈ l, x.1 ∈ sortedEntries project)
    (hup : ∀ id ∈ claimedUpFront project, id ∈ st.claimedChannels) :
    (oks (emit project s l st)).map identity =
      (assign project (firstOfLowByte (st.seenLowBytes.map Prod.fst)
          ((l.filter (contends project s)).map Prod.fst))
        (freeChannels project st.claimedChannels)).map assigned := by
  induction l generalizing st with
  | nil => rfl
  | cons x rest ih =>
      obtain ⟨entry, index⟩ := x
      have hrest : ∀ x ∈ rest, x.1 ∈ sortedEntries project :=
        fun x hx => hl x (List.mem_cons_of_mem _ hx)
      have hentry : entry ∈ sortedEntries project := hl _ List.mem_cons_self
      have hfirst : contends project s (entry, index) = true →
          lowByte entry ∉ st.seenLowBytes.map Prod.fst →
          firstOfLowByte (st.seenLowBytes.map Prod.fst)
              ((((entry, index) :: rest).filter (contends project s)).map Prod.fst) =
            entry :: firstOfLowByte (lowByte entry :: st.seenLowBytes.map Prod.fst)
              ((rest.filter (contends project s)).map Prod.fst) := by
        intro hcontends hnew
        rw [List.filter_cons_of_pos hcontends, List.map_cons, firstOfLowByte_new hnew]
      simp only [emit]
      rcases emitOne_cases project s entry st index with ⟨hskip, reason, hout⟩ |
        ⟨hcontends, hnew, ⟨reason, hmbox, hout⟩ | ⟨mbox, hmbox, hst, hok, hid⟩⟩
      · rw [hout]
        simp only [oks_cons_blocked, ih st hrest hup]
        rcases hskip with hskip | hskip
        · rw [List.filter_cons_of_neg (by rw [hskip]; exact nofun)]
        · cases hc : contends project s (entry, index) with
          | false => rw [List.filter_cons_of_neg (by rw [hc]; exact nofun)]
          | true =>
              rw [List.filter_cons_of_pos hc, List.map_cons, firstOfLowByte_seen hskip]
      · rw [hout]
        simp only [oks_cons_blocked]
        have hih := ih ⟨st.claimedChannels, (lowByte entry, entry.name) :: st.seenLowBytes⟩ hrest hup
        simp only [List.map_cons] at hih
        rw [hih, hfirst hcontends hnew]
        cases hown : ownChannel project entry with
        | some ch =>
            rw [resolveMailboxChannel_own hown] at hmbox
            cases hmbox
        | none =>
            rw [resolveMailboxChannel_app hown] at hmbox
            cases hfree : freeChannels project st.claimedChannels with
            | nil => simp only [assign, hown]
            | cons first free =>
                rw [hfree] at hmbox
                cases hmbox
      · have hoks : oks ((emitOne project s st entry index).2 ::
            emit project s rest (emitOne project s st entry index).1) =
            (emitOne project s st entry index).2 ::
              oks (emit project s rest (emitOne project s st entry index).1) :=
          List.filter_cons_of_pos (by simp [hok])
        have hih := ih ⟨mbox :: st.claimedChannels, (lowByte entry, entry.name) :: st.seenLowBytes⟩
          hrest fun id h => List.mem_cons_of_mem _ (hup id h)
        simp only [List.map_cons] at hih
        rw [hoks, List.map_cons, hid, hst, hih, hfirst hcontends hnew]
        cases hown : ownChannel project entry with
        | some ch =>
            rw [resolveMailboxChannel_own hown] at hmbox
            cases hmbox
            have hclaimed := hup ch.id (ownChannel_claimed hentry hown)
            simp only [freeChannels_claimed hclaimed, assign, hown, List.map_cons]
        | none =>
            rw [resolveMailboxChannel_app hown] at hmbox
            cases hfree : freeChannels project st.claimedChannels with
            | nil =>
                rw [hfree] at hmbox
                cases hmbox
            | cons first free =>
                rw [hfree] at hmbox
                cases hmbox
                simp only [freeChannels_cons hfree, assign, hown, List.map_cons]

end Emission

section Conditions

theorem firstOfLowByte_fresh (seen : List Nat) (entries : List IpcEntry) :
    ∀ entry ∈ firstOfLowByte seen entries, entry ∈ entries ∧ lowByte entry ∉ seen := by
  induction entries generalizing seen with
  | nil => exact fun _ h => absurd h List.not_mem_nil
  | cons first rest ih =>
      intro entry hmem
      by_cases hseen : lowByte first ∈ seen
      · rw [firstOfLowByte_seen hseen] at hmem
        obtain ⟨hin, hnot⟩ := ih seen entry hmem
        exact ⟨List.mem_cons_of_mem _ hin, hnot⟩
      · rw [firstOfLowByte_new hseen] at hmem
        rcases List.mem_cons.mp hmem with rfl | hrest
        · exact ⟨List.mem_cons_self, hseen⟩
        · obtain ⟨hin, hnot⟩ := ih _ entry hrest
          exact ⟨List.mem_cons_of_mem _ hin, fun h => hnot (List.mem_cons_of_mem _ h)⟩

theorem firstOfLowByte_distinct (seen : List Nat) (entries : List IpcEntry) :
    (firstOfLowByte seen entries).Pairwise fun entry entry' => lowByte entry ≠ lowByte entry' := by
  induction entries generalizing seen with
  | nil => exact .nil
  | cons first rest ih =>
      by_cases hseen : lowByte first ∈ seen
      · rw [firstOfLowByte_seen hseen]
        exact ih seen
      · rw [firstOfLowByte_new hseen, List.pairwise_cons]
        refine ⟨fun entry hmem heq => ?_, ih _⟩
        exact (firstOfLowByte_fresh _ rest entry hmem).2 (heq ▸ List.mem_cons_self)

theorem mem_contenders (h : entry ∈ contenders project s) : entry ∈ sortedEntries project := by
  obtain ⟨hin, -⟩ := firstOfLowByte_fresh _ _ entry h
  obtain ⟨⟨e, index⟩, hpair, rfl⟩ := List.mem_map.mp hin
  exact List.mem_zipIdx' (List.mem_filter.mp hpair).1 |>.2 ▸ List.getElem_mem _

theorem lowByte_lt (entry : IpcEntry) : lowByte entry < 2 ^ 8 :=
  Nat.lt_of_le_of_lt Nat.and_le_right (by decide)

theorem srcEpt_eq (entry : IpcEntry) : 0x400 ||| lowByte entry = 0x400 + lowByte entry := by
  have h := Nat.two_pow_add_eq_or_of_lt (lowByte_lt entry) 4
  exact h.symm

-- With distinct low bytes only a dst and the src after it can be the same id.
theorem endpoints_nodup {entries : List IpcEntry}
    (hlow : entries.Pairwise fun entry entry' => lowByte entry ≠ lowByte entry') :
    (entries.flatMap fun entry => [0x400 ||| lowByte entry, (0x400 ||| lowByte entry) + 1]).Nodup ↔
      ∀ entry ∈ entries, ∀ entry' ∈ entries, lowByte entry' ≠ lowByte entry + 1 := by
  have hpair : ∀ entry entry' : IpcEntry, lowByte entry ≠ lowByte entry' →
      (List.Disjoint [0x400 ||| lowByte entry, (0x400 ||| lowByte entry) + 1]
          [0x400 ||| lowByte entry', (0x400 ||| lowByte entry') + 1] ↔
        lowByte entry' ≠ lowByte entry + 1 ∧ lowByte entry ≠ lowByte entry' + 1) := by
    intro entry entry' hne
    simp only [srcEpt_eq, List.disjoint_cons_left, List.mem_cons, List.not_mem_nil, or_false,
      not_or, List.disjoint_nil_left, and_true]
    omega
  rw [List.nodup_flatMap]
  constructor
  · rintro ⟨-, hdisjoint⟩ entry hmem entry' hmem' heq
    have hne : entry ≠ entry' := fun h => by
      rw [h] at heq
      omega
    have happart : entries.Pairwise fun e e' =>
        lowByte e' ≠ lowByte e + 1 ∧ lowByte e ≠ lowByte e' + 1 :=
      (hlow.and hdisjoint).imp fun h => (hpair _ _ h.1).mp h.2
    have hsymm : Std.Symm fun e e' : IpcEntry =>
        lowByte e' ≠ lowByte e + 1 ∧ lowByte e ≠ lowByte e' + 1 := ⟨fun _ _ h => ⟨h.2, h.1⟩⟩
    exact (happart.forall hmem hmem' hne).1 heq
  · intro hall
    refine ⟨fun entry _ => by simp, ?_⟩
    refine hlow.imp_of_mem fun hmem hmem' hne => ?_
    exact (hpair _ _ hne).mpr ⟨hall _ hmem _ hmem', hall _ hmem' _ hmem⟩

theorem flatMap_endpoints {outs : List ResolvedCarveOut} {pairs : List (IpcEntry × Int)}
    (houts : (oks outs).map identity = pairs.map assigned) :
    ((oks outs).flatMap fun out => [out.srcEpt, out.dstEpt]) =
      (pairs.map Prod.fst).flatMap fun entry =>
        [0x400 ||| lowByte entry, (0x400 ||| lowByte entry) + 1] := by
  have h := congrArg (List.flatMap fun id : String × Nat × Nat × Int => [id.2.1, id.2.2.1]) houts
  simp only [List.flatMap_map] at h ⊢
  exact h

theorem map_channels {outs : List ResolvedCarveOut} {pairs : List (IpcEntry × Int)}
    (houts : (oks outs).map identity = pairs.map assigned) :
    (oks outs).map (·.mailboxChannel) = pairs.map Prod.snd := by
  have h := congrArg (List.map fun id : String × Nat × Nat × Int => id.2.2.2) houts
  simp only [List.map_map] at h
  exact h

theorem forall_oks {outs : List ResolvedCarveOut} {pairs : List (IpcEntry × Int)}
    (houts : (oks outs).map identity = pairs.map assigned) (P : String → Int → Prop) :
    (∀ out ∈ oks outs, P out.name out.mailboxChannel) ↔ ∀ pair ∈ pairs, P pair.1.name pair.2 := by
  have h : (∀ id ∈ (oks outs).map identity, P id.1 id.2.2.2) ↔
      ∀ id ∈ pairs.map assigned, P id.1 id.2.2.2 := by rw [houts]
  simp only [List.forall_mem_map] at h
  exact h

-- Which rows may carry the ids that are handed out.
theorem reserved_iff (entries : List IpcEntry) (free : List Int) :
    (∀ pair ∈ assign project entries free, ∀ ch ∈ project.mailbox.channels, ch.id = pair.2 →
        ch.reservedFor = some "app" ∨ ch.reservedFor = some pair.1.name) ↔
      (∀ entry ∈ served project entries free.length, ∀ ch, ownChannel project entry = some ch →
        ∀ row ∈ project.mailbox.channels, row.id = ch.id →
          row.reservedFor = some "app" ∨ row.reservedFor = some entry.name) ∧
      ∀ id ∈ free.take ((served project entries free.length).countP fun entry =>
          ownChannel project entry = none),
        ∀ row ∈ project.mailbox.channels, row.id = id → row.reservedFor = some "app" := by
  rw [← assign_app]
  constructor
  · intro hall
    refine ⟨fun entry hmem ch hown => hall _ (assign_of_own hmem hown), ?_⟩
    intro id hid row hrow heq
    obtain ⟨⟨entry, id'⟩, hpair, rfl⟩ := List.mem_map.mp hid
    obtain ⟨hpair, hnone⟩ := List.mem_filter.mp hpair
    refine (hall _ hpair row hrow heq).resolve_right fun hname => ?_
    -- a row of its own name would be the entry's own channel
    have hfind := List.find?_eq_none.mp (of_decide_eq_true hnone) row hrow
    exact hfind (by simpa using hname)
  · rintro ⟨hown, happ⟩ ⟨entry, id⟩ hpair row hrow heq
    cases hch : ownChannel project entry with
    | some ch => exact hown entry (mem_served hpair) ch hch row hrow (heq.trans (assign_own hpair hch))
    | none =>
        refine .inl (happ id (List.mem_map.mpr ⟨(entry, id), ?_, rfl⟩) row hrow heq)
        exact List.mem_filter.mpr ⟨hpair, by simpa using hch⟩

theorem identified_iff_noClash {outs : List ResolvedCarveOut} {entries : List IpcEntry}
    (houts : (oks outs).map identity = (assign project entries
      (freeChannels project (claimedUpFront project))).map assigned)
    (hentries : ∀ entry ∈ entries, entry ∈ sortedEntries project)
    (hlow : entries.Pairwise fun entry entry' => lowByte entry ≠ lowByte entry') :
    Identified project outs ↔ NoClash project
      (served project entries (freeChannels project (claimedUpFront project)).length) := by
  have hends := flatMap_endpoints houts
  rw [assign_fst] at hends
  have hdistinct := endpoints_nodup (hlow.sublist (served_sublist project entries
    (freeChannels project (claimedUpFront project)).length))
  have hchannels := map_channels houts
  have hunclaimed : ∀ entry ∈ entries, ∀ ch, ownChannel project entry = some ch →
      ch.id ∉ freeChannels project (claimedUpFront project) :=
    fun entry hmem ch hown hfree => (mem_freeChannels.mp hfree).2
      (ownChannel_claimed (hentries entry hmem) hown)
  have hnodup := assign_nodup freeChannels_nodup hunclaimed
  have hreserved := (forall_oks houts fun name id => ∀ ch ∈ project.mailbox.channels, ch.id = id →
    ch.reservedFor = some "app" ∨ ch.reservedFor = some name).trans (reserved_iff entries _)
  constructor
  · rintro ⟨h1, h2, -, h4⟩
    rw [hends, hdistinct] at h1
    rw [hchannels, hnodup] at h2
    obtain ⟨hown, happ⟩ := hreserved.mp h4
    exact ⟨h1, h2, hown, happ⟩
  · rintro ⟨h1, h2, h3, h4⟩
    refine ⟨?_, ?_, ?_, hreserved.mpr ⟨h3, h4⟩⟩
    · rw [hends, hdistinct]
      exact h1
    · rw [hchannels, hnodup]
      exact h2
    · refine (forall_oks houts fun _ id => ∃ ch ∈ project.mailbox.channels, ch.id = id).mpr ?_
      rintro ⟨entry, id⟩ hpair
      rcases assign_mem hpair with ⟨ch, hown, rfl⟩ | ⟨-, hfree⟩
      · exact ⟨ch, List.mem_of_find?_eq_some hown, rfl⟩
      · obtain ⟨⟨ch, hch, -, rfl⟩, -⟩ := mem_freeChannels.mp hfree
        exact ⟨ch, hch, rfl⟩

end Conditions

theorem contenders_distinct : (contenders project s).Pairwise fun entry entry' =>
    lowByte entry ≠ lowByte entry' := firstOfLowByte_distinct _ _

theorem identified_of_placements {outs : List ResolvedCarveOut}
    (hs : placements project = some s) (houts : resolveCarveOuts project = some outs) :
    Identified project outs ↔ NoClash project (servedEntries project s) := by
  by_cases hempty : project.ipc = []
  · have hnone : outs = [] := by
      rw [resolveCarveOuts, if_pos hempty] at houts
      exact (Option.some.inj houts).symm
    have hsorted : sortedEntries project = [] := by rw [sortedEntries, hempty]; rfl
    have hserved : servedEntries project s = [] := by
      rw [servedEntries, contenders, hsorted]
      rfl
    rw [hnone, hserved]
    refine iff_of_true ⟨.nil, .nil, ?_, ?_⟩ ⟨?_, .nil, ?_, ?_⟩
    · exact fun _ h => absurd h List.not_mem_nil
    · exact fun _ h => absurd h List.not_mem_nil
    · exact fun _ h => absurd h List.not_mem_nil
    · exact fun _ h => absurd h List.not_mem_nil
    · exact fun _ h => absurd h List.not_mem_nil
  · rw [resolveCarveOuts_eq hempty hs] at houts
    cases houts
    refine identified_iff_noClash ?_ (fun _ h => mem_contenders h) contenders_distinct
    refine emit_oks _ ⟨claimedUpFront project, []⟩ ?_ fun _ h => h
    rintro ⟨entry, index⟩ hpair
    exact (List.mem_zipIdx' hpair).2 ▸ List.getElem_mem _

-- The ids and the channels are unique exactly where the entries the loop serves do not clash.
theorem identified_iff :
    (∀ outs, resolveCarveOuts project = some outs → Identified project outs) ↔
      ∀ s, placements project = some s → NoClash project (servedEntries project s) := by
  constructor
  · intro hall s hs
    by_cases hempty : project.ipc = []
    · have houts : resolveCarveOuts project = some [] := by rw [resolveCarveOuts, if_pos hempty]
      exact (identified_of_placements hs houts).mp (hall _ houts)
    · have houts := resolveCarveOuts_eq hempty hs
      exact (identified_of_placements hs houts).mp (hall _ houts)
  · intro hall outs houts
    cases hs : placements project with
    | some s => exact (identified_of_placements hs houts).mpr (hall s hs)
    | none =>
        by_cases hempty : project.ipc = []
        · have hsome : placements project = some emptyPlacing := by
            simp [placements, placeable, sortedEntries, hempty, placePass]
          rw [hs] at hsome
          cases hsome
        · rw [resolveCarveOuts, if_neg hempty, hs] at houts
          cases houts

-- Two shared-memory channels of 8 KiB in the region of `pinnedAndFloating`.
def twoChannels (channels : List Channel) (first second : String) : BoardProject :=
  { pinnedAndFloating with
    mailbox := { controller := .named "renesas_mhu", channels := channels }
    ipc := [first, second].map fun name =>
      { name := name, kind := .rawShmem, endpoints := ["a55_cluster", "m33_sm"]
        carveOutKb := 8, cacheable := none, address := none } }

def resolvedIdentities (project : BoardProject) : Option (List (String × Nat × Nat × Int)) :=
  (resolveCarveOuts project).map fun outs => (oks outs).map identity

theorem outs_of_identities (project : BoardProject) (ids : List (String × Nat × Nat × Int))
    (h : resolvedIdentities project = some ids) :
    ∃ outs, resolveCarveOuts project = some outs ∧ (oks outs).map identity = ids :=
  Option.map_eq_some_iff.mp h

-- The low bytes of "camera" and "frames" are 0x4e and 0x4f, so the dst of the first is the src
-- of the second; and two rows of the mailbox may reserve channel 1 for two entries.
theorem camera_dst_is_frames_src :
    (∃ outs, resolveCarveOuts (twoChannels [⟨1, some "app"⟩, ⟨2, some "app"⟩] "camera" "frames") =
        some outs ∧
      (oks outs).map identity = [("camera", 0x44e, 0x44f, 1), ("frames", 0x44f, 0x450, 2)] ∧
      ¬Identified (twoChannels [⟨1, some "app"⟩, ⟨2, some "app"⟩] "camera" "frames") outs) ∧
    ∃ outs, resolveCarveOuts (twoChannels [⟨1, some "audio"⟩, ⟨1, some "video"⟩] "audio" "video") =
        some outs ∧ (oks outs).map (·.mailboxChannel) = [1, 1] ∧
      ¬Identified (twoChannels [⟨1, some "audio"⟩, ⟨1, some "video"⟩] "audio" "video") outs := by
  constructor
  · obtain ⟨outs, houts, hids⟩ := outs_of_identities
      (twoChannels [⟨1, some "app"⟩, ⟨2, some "app"⟩] "camera" "frames")
      [("camera", 0x44e, 0x44f, 1), ("frames", 0x44f, 0x450, 2)] (by decide +kernel)
    refine ⟨outs, houts, hids, fun h => ?_⟩
    have hnodup := h.endpoints
    have heq : ((oks outs).flatMap fun out => [out.srcEpt, out.dstEpt]) =
        ((oks outs).map identity).flatMap fun id => [id.2.1, id.2.2.1] := by
      rw [List.flatMap_map]
      rfl
    rw [heq, hids] at hnodup
    exact absurd hnodup (by decide)
  · obtain ⟨outs, houts, hids⟩ := outs_of_identities
      (twoChannels [⟨1, some "audio"⟩, ⟨1, some "video"⟩] "audio" "video")
      [("audio", 0x499, 0x49a, 1), ("video", 0x46c, 0x46d, 1)] (by decide +kernel)
    have hchannels : (oks outs).map (·.mailboxChannel) = [1, 1] := by
      have h := congrArg (List.map fun id : String × Nat × Nat × Int => id.2.2.2) hids
      simp only [List.map_map] at h
      exact h
    refine ⟨outs, houts, hchannels, fun h => ?_⟩
    have hnodup := h.channels
    rw [hchannels] at hnodup
    exact absurd hnodup (by decide)

end AlpSdk.Orchestrate

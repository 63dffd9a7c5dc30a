import Mathlib.Data.List.GetD
import AlpSdk.DrpAi.ShapeRecovery

namespace AlpSdk.DrpAi

open Library.Json Library.Checked

section Correlation

variable {names : List (List UInt8)} {ds : DeployShapes}

-- The entry whose shape an input is given: by its name where any input has one, else by its place.
def entryOf (names : List (List UInt8)) (ds : DeployShapes) (i : ℕ) : Option ℕ :=
  if ∃ name ∈ names, (matched ds name).isSome then matched ds (names.getD i [])
  else if ds.inputShapes.length = names.length then some i
  else none

theorem matched_name {name : List UInt8} {j : ℕ} (h : matched ds name = some j) :
    ds.inputNames[j]? = some name := by
  unfold matched at h
  obtain ⟨hj, hname, -⟩ := List.findIdx?_eq_some_iff_getElem.mp h
  rw [List.getElem?_eq_getElem hj, of_decide_eq_true hname]

-- The loop over the names, up to its `n`-th turn.
theorem matchInput_run (names : List (List UInt8)) (ds : DeployShapes)
    (outShapes : List (List UInt16)) {n : ℕ} (hn : n ≤ outShapes.length) :
    let state := (List.range n).foldl (matchInput names ds) (outShapes, false)
    state.1.length = outShapes.length ∧
      (∀ i, state.1[i]? = if i < n then
        match matched ds (names.getD i []) with
        | some j => some (ds.inputShapes.getD j [])
        | none => outShapes[i]?
      else outShapes[i]?) ∧
      (state.2 = true ↔ ∃ i < n, (matched ds (names.getD i [])).isSome) := by
  induction n with
  | zero => simp
  | succ n ih =>
      obtain ⟨hlength, hget, hany⟩ := ih (by omega)
      simp only [List.range_succ, List.foldl_append, List.foldl_cons, List.foldl_nil]
      generalize (List.range n).foldl (matchInput names ds) (outShapes, false) = state at *
      unfold matchInput
      cases hmatch : matched ds (names.getD n []) with
      | none =>
          refine ⟨hlength, fun i => ?_, ?_⟩
          · by_cases hi : i = n
            · subst hi
              rw [if_pos (by omega), hmatch, hget, if_neg (by omega)]
            · rw [hget]
              exact if_congr (by omega) rfl rfl
          · rw [hany]
            constructor
            · rintro ⟨i, hi, hsome⟩
              exact ⟨i, by omega, hsome⟩
            · rintro ⟨i, hi, hsome⟩
              by_cases hin : i = n
              · rw [hin, hmatch] at hsome
                simp at hsome
              · exact ⟨i, by omega, hsome⟩
      | some j =>
          refine ⟨by simp [hlength], fun i => ?_, ?_⟩
          · by_cases hi : i = n
            · subst hi
              rw [if_pos (by omega), hmatch, List.getElem?_set_self (by omega)]
            · rw [List.getElem?_set_ne (by omega), hget]
              exact if_congr (by omega) rfl rfl
          · simp only [true_iff]
            exact ⟨n, by omega, by rw [hmatch]; rfl⟩

theorem setAll_run (shape : ℕ → List UInt16) (outShapes : List (List UInt16)) {n : ℕ}
    (hn : n ≤ outShapes.length) (i : ℕ) :
    ((List.range n).foldl (fun out i => out.set i (shape i)) outShapes)[i]? =
      if i < n then some (shape i) else outShapes[i]? := by
  induction n with
  | zero => simp
  | succ n ih =>
      have hlength : ∀ (m : ℕ) (out : List (List UInt16)),
          ((List.range m).foldl (fun out i => out.set i (shape i)) out).length = out.length := by
        intro m out
        induction m with
        | zero => rfl
        | succ m ih => simp [List.range_succ, ih]
      simp only [List.range_succ, List.foldl_append, List.foldl_cons, List.foldl_nil]
      by_cases hi : i = n
      · subst hi
        rw [List.getElem?_set_self (by rw [hlength]; omega), if_pos (by omega)]
      · rw [List.getElem?_set_ne (by omega), ih (by omega)]
        exact if_congr (by omega) rfl rfl

theorem any_matched :
    (∃ i < names.length, (matched ds (names.getD i [])).isSome) ↔
      ∃ name ∈ names, (matched ds name).isSome := by
  constructor
  · rintro ⟨i, hi, hsome⟩
    rw [List.getD_eq_getElem names [] hi] at hsome
    exact ⟨names[i], List.getElem_mem hi, hsome⟩
  · rintro ⟨name, hname, hsome⟩
    obtain ⟨i, hi, rfl⟩ := List.mem_iff_getElem.mp hname
    exact ⟨i, hi, by rwa [List.getD_eq_getElem names [] hi]⟩

theorem getD_found {xs : List (List UInt16)} {j : ℕ} (h : j < xs.length) : some (xs.getD j []) = xs[j]? := by
  rw [List.getD_eq_getElem xs [] h, List.getElem?_eq_getElem h]

theorem entryOf_lt (hds : ds.inputNames.length = ds.inputShapes.length) {i j : ℕ} (hi : i < names.length)
    (h : entryOf names ds i = some j) : j < ds.inputShapes.length := by
  unfold entryOf at h
  split at h
  · have hlt := (List.getElem?_eq_some_iff.mp (matched_name h)).1
    omega
  · split at h
    · cases h
      omega
    · cases h

-- An input is given the shape of its entry, and keeps the one it has where it has none.
theorem correlate_entry (hds : ds.inputNames.length = ds.inputShapes.length) (outShapes : List (List UInt16))
    (hout : outShapes.length = names.length) {i : ℕ} (hi : i < names.length) :
    (correlateInputShapes names ds outShapes)[i]? =
      match entryOf names ds i with
      | some j => ds.inputShapes[j]?
      | none => outShapes[i]? := by
  obtain ⟨hlength, hget, hany⟩ := matchInput_run names ds outShapes (le_of_eq hout.symm)
  rw [any_matched] at hany
  unfold correlateInputShapes
  simp only
  generalize (List.range names.length).foldl (matchInput names ds) (outShapes, false) = state at *
  by_cases hmatched : ∃ name ∈ names, (matched ds name).isSome
  · rw [if_neg (by simp [hany.mpr hmatched]), hget, if_pos hi, entryOf, if_pos hmatched]
    cases hj : matched ds (names.getD i []) with
    | none => rfl
    | some j =>
        have hlt := (List.getElem?_eq_some_iff.mp (matched_name hj)).1
        exact getD_found (by omega)
  · have hnone : matched ds (names.getD i []) = none := by
      by_contra hsome
      exact hmatched (any_matched.mp ⟨i, hi, Option.isSome_iff_ne_none.mpr hsome⟩)
    have hflag : state.2 = false := by
      rw [← Bool.not_eq_true, hany]
      exact hmatched
    rw [entryOf, if_neg hmatched]
    by_cases hcounts : ds.inputShapes.length = names.length
    · rw [if_pos (by simp [hflag, hcounts]), if_pos hcounts, setAll_run _ _ (by omega), if_pos hi]
      exact getD_found (by omega)
    · rw [if_neg (by simp [hcounts]), if_neg hcounts, hget, if_pos hi, hnone]

-- No two inputs of different names are given the shape of one entry.
theorem entryOf_names {i i' j : ℕ} (hi : i < names.length) (hi' : i' < names.length)
    (h : entryOf names ds i = some j) (h' : entryOf names ds i' = some j) : names[i]? = names[i']? := by
  unfold entryOf at h h'
  split at h
  · rename_i hmatched
    rw [if_pos hmatched] at h'
    have hname := (matched_name h).symm.trans (matched_name h')
    rw [List.getD_eq_getElem names [] hi, List.getD_eq_getElem names [] hi'] at hname
    rw [List.getElem?_eq_getElem hi, List.getElem?_eq_getElem hi', hname]
  · rename_i hmatched
    rw [if_neg hmatched] at h'
    split at h
    · rename_i hcounts
      rw [if_pos hcounts] at h'
      rw [Option.some.inj h, Option.some.inj h']
    · cases h

end Correlation

-- The file is read as the graph it spells, no file leads the parser astray, and what is read of it
-- is given to the inputs entry by entry.
theorem deploy_shapes_recovered (strtod : Strtod) :
    (∀ w text w' root t args heads, Blank w → ValueText Decoded (· = NAME) text root → Blank w' →
      WellFormed root t args heads →
      ∃ out, parseDeployShapes strtod (some (w ++ (text ++ w'))) = pure out ∧ Recovered root out) ∧
    (∀ file, Sound (parseDeployShapes strtod file) fun out => ∃ text root rest, file = some text ∧
      parse strtod text = pure (root, rest) ∧ Recovered root out) ∧
    ∀ names ds (outShapes : List (List UInt16)), outShapes.length = names.length →
      ds.inputNames.length = ds.inputShapes.length →
      (∀ i < names.length, (correlateInputShapes names ds outShapes)[i]? =
        match entryOf names ds i with
        | some j => ds.inputShapes[j]?
        | none => outShapes[i]?) ∧
      ∀ i < names.length, ∀ i' < names.length, ∀ j, entryOf names ds i = some j →
        entryOf names ds i' = some j → j < ds.inputShapes.length ∧ names[i]? = names[i']? := by
  refine ⟨?_, parseDeployShapes_sound, ?_⟩
  · intro w text w' root t args heads hw htext hw' hgraph
    obtain ⟨out, hout⟩ := hgraph.recovered
    exact ⟨out, parseDeployShapes_text hw htext hw' hout, hout⟩
  · intro names ds outShapes hout hds
    refine ⟨fun i hi => correlate_entry hds outShapes hout hi, ?_⟩
    intro i hi i' hi' j hj hj'
    exact ⟨entryOf_lt hds hi hj, entryOf_names hi hi' hj hj'⟩

section Example

-- `strtod` on the integers.
def Strtod.decimal : Strtod where
  run s :=
    let neg := decide (s.head? = some minus)
    let digits := (if neg then s.tail else s).takeWhile isDigit
    if digits = [] then (0, 0) else ((sign neg ++ digits).length, signed neg (Library.Json.decimal digits))
  integer neg digits rest hne hdigits _ hrest := by
    have hstop : (digits ++ rest).takeWhile isDigit = digits := by
      rw [List.takeWhile_append_of_pos hdigits]
      cases rest with
      | nil => simp
      | cons b rest =>
          have hb := endsNumber_stops (hrest b (by simp))
          simp only [isNumberByte, Bool.or_eq_false_iff] at hb
          simp [hb.1.1.1.1.1]
    have hneg : decide ((sign neg ++ (digits ++ rest)).head? = some minus) = neg := by
      cases neg with
      | true => rfl
      | false =>
          cases digits with
          | nil => exact absurd rfl hne
          | cons d digits =>
              have hd := hdigits d (by simp)
              have hminus : d ≠ minus := by
                rintro rfl
                exact absurd hd (by decide)
              simp [sign, hminus]
    have htail : (if neg = true then (sign neg ++ (digits ++ rest)).tail else sign neg ++ (digits ++ rest)) =
        digits ++ rest := by
      cases neg <;> rfl
    simp only [hneg, htail, hstop, if_neg hne]

-- A graph of one node, and of one row for it, with a last dimension to choose.
def graphText (name dim : List UInt8) : List UInt8 :=
  ascii "\x7b\"nodes\":[\x7b\"name\":\"" ++ (name ++ (ascii
    "\"\x7d],\"node_row_ptr\":[0,1],\"arg_nodes\":[0],\"heads\":[[0,0]],\"attrs\":\x7b\"shape\":[\"list_shape\",[[1," ++
      (dim ++ ascii "]]]\x7d\x7d")))

def graphRoot (name : List UInt8) (dim : ℕ) : JsonValue :=
  .object [
    (NODES, .array [.object [(NAME, .string name)]]),
    (NODE_ROW_PTR, .array [.number 0, .number 1]),
    (ARG_NODES, .array [.number 0]),
    (HEADS, .array [.array [.number 0, .number 0]]),
    (ATTRS, .object [(SHAPE, .array [.string (ascii "list_shape"), .array [.array [.number 1, .number dim]]])])]

def graphTables (name : List UInt8) (dim : ℕ) : Tables :=
  ⟨[.object [(NAME, .string name)]], [0, 1], [.array [.number 1, .number dim]]⟩

section Text

variable {escapes : Escape → Prop} {named : List UInt8 → Prop}

theorem plain_of_all {s : List UInt8} (h : s.all (fun b => b ≠ quote ∧ b ≠ backslash ∧ 0x20 ≤ b) = true) :
    ∀ b ∈ s, b ≠ quote ∧ b ≠ backslash ∧ 0x20 ≤ b := by
  simpa only [List.all_eq_true, decide_eq_true_eq] using h

theorem numberText (d : UInt8) (hd : isDigit d = true) :
    ValueText escapes named [d] (.number (d.toNat - 0x30 : ℕ)) := by
  have hsmall : decimal [d] < 2 ^ 53 := by
    have hlt := d.toNat_lt
    simp only [decimal, List.foldl_cons, List.foldl_nil]
    omega
  have h : ValueText escapes named (sign false ++ [d]) (.number (signed false (decimal [d]))) :=
    .number false (by simp) (by simpa using hd) hsmall
  simpa [sign, signed, decimal] using h

theorem itemText {t : List UInt8} {v : JsonValue} (h : ValueText escapes named t v) :
    ItemsText escapes named t [v] := by
  simpa using ItemsText.last blank_nil h blank_nil

theorem itemsText {t t' : List UInt8} {v : JsonValue} {items : List JsonValue}
    (h : ValueText escapes named t v) (rest : ItemsText escapes named t' items) :
    ItemsText escapes named (t ++ comma :: t') (v :: items) := by
  simpa using ItemsText.next blank_nil h blank_nil rest

theorem memberText {t key : List UInt8} {v : JsonValue}
    (hkey : ∀ b ∈ key, b ≠ quote ∧ b ≠ backslash ∧ 0x20 ≤ b) (h : ValueText escapes named t v)
    (hnamed : named key → ∀ s, v = .string s → ∃ n, t = quoted n ∧ NameText escapes n s) : MemberText escapes named (quoted key ++ colon :: t) (key, v) := by
  simpa using MemberText.member blank_nil (Chars.plainText hkey) blank_nil blank_nil h hnamed

theorem membersText {t t' : List UInt8} {m : List UInt8 × JsonValue}
    {members : List (List UInt8 × JsonValue)} (h : MemberText escapes named t m)
    (rest : MembersText escapes named t' members) :
    MembersText escapes named (t ++ comma :: t') (m :: members) := by
  simpa using MembersText.next h blank_nil rest

theorem lastMember {t : List UInt8} {m : List UInt8 × JsonValue} (h : MemberText escapes named t m) :
    MembersText escapes named t [m] := by
  simpa using MembersText.last h blank_nil

theorem graph_text {k s d : List UInt8} {dim : ℕ} (h : NameText escapes k s)
    (hdim : ValueText escapes (· = NAME) d (.number dim)) :
    ValueText escapes (· = NAME) (graphText k d) (graphRoot s dim) := by
  have hzero : ValueText escapes (· = NAME) [0x30] (.number 0) := numberText 0x30 (by decide)
  have hone : ValueText escapes (· = NAME) [0x31] (.number 1) := numberText 0x31 (by decide)
  have hstring : StringText k s := h.mono (fun _ _ => trivial) False.elim
  have hname : MemberText escapes (· = NAME) (quoted NAME ++ colon :: quoted k) (NAME, .string s) := by
    apply memberText (plain_of_all rfl) (.string hstring)
    intro _ s' hs
    injection hs with hs
    exact ⟨k, rfl, hs ▸ h⟩
  have hother {t key : List UInt8} {v : JsonValue} (hkey : ∀ b ∈ key, b ≠ quote ∧ b ≠ backslash ∧ 0x20 ≤ b)
      (hnamed : key ≠ NAME) (hvalue : ValueText escapes (· = NAME) t v) :
      MemberText escapes (· = NAME) (quoted key ++ colon :: t) (key, v) :=
    memberText hkey hvalue fun hkeyed => absurd hkeyed hnamed
  have hnodes := hother (plain_of_all (s := NODES) rfl) (by decide)
    (.array (itemText (.object (lastMember hname))))
  have hrowPtr := hother (plain_of_all (s := NODE_ROW_PTR) rfl) (by decide)
    (.array (itemsText hzero (itemText hone)))
  have hargs := hother (plain_of_all (s := ARG_NODES) rfl) (by decide) (.array (itemText hzero))
  have hheads := hother (plain_of_all (s := HEADS) rfl) (by decide)
    (.array (itemText (.array (itemsText hzero (itemText hzero)))))
  have htag : ValueText escapes (· = NAME) (quoted (ascii "list_shape")) (.string (ascii "list_shape")) :=
    .string (Chars.plainText (plain_of_all rfl))
  have hshape := hother (plain_of_all (s := SHAPE) rfl) (by decide)
    (.array (itemsText htag (itemText (.array (itemText (.array (itemsText hone (itemText hdim))))))))
  have hattrs := hother (plain_of_all (s := ATTRS) rfl) (by decide) (.object (lastMember hshape))
  have hroot := ValueText.object
    (membersText hnodes (membersText hrowPtr (membersText hargs (membersText hheads (lastMember hattrs)))))
  simp only [quoted, List.cons_append, List.append_assoc, List.nil_append] at hroot
  exact hroot

end Text

section Graph

variable (name : List UInt8) (dim : ℕ)

theorem graph_layout :
    Layout (graphRoot name dim) (graphTables name dim) [.number 0] [.array [.number 0, .number 0]] := by
  refine ⟨rfl, rfl, rfl, rfl, ⟨_, _, rfl, rfl⟩, rfl, ?_⟩
  intro p hp
  rcases List.mem_pair.mp hp with rfl | rfl <;> decide

theorem graph_argRow : ArgRow (graphTables name dim) (.number 0) (.object [(NAME, .string name)]) 0 :=
  ⟨0, rfl, rfl, rfl, rfl⟩

theorem graph_headRow : HeadRow (graphTables name dim) (.array [.number 0, .number 0]) 0 :=
  ⟨0, 0, 0, 1, [], rfl, Nat.one_pos, rfl, rfl, by decide, rfl⟩

theorem graph_wellFormed (hdim : dim ≤ 65535) :
    WellFormed (graphRoot name dim) (graphTables name dim) [.number 0] [.array [.number 0, .number 0]] := by
  have hfits : RowFits (graphTables name dim).rows 0 := by
    refine ⟨[.number 1, .number dim], rfl, ?_⟩
    rintro - d hd
    rcases List.mem_pair.mp hd with rfl | rfl
    · exact ⟨1, by decide, rfl⟩
    · exact ⟨dim, hdim, rfl⟩
  refine ⟨graph_layout name dim, ?_, ?_⟩
  · intro an han
    obtain rfl := List.mem_singleton.mp han
    exact ⟨_, 0, graph_argRow name dim, hfits⟩
  · intro head hhead
    obtain rfl := List.mem_singleton.mp hhead
    exact ⟨0, graph_headRow name dim, hfits⟩

end Graph

theorem three_text {escapes : Escape → Prop} : ValueText escapes (· = NAME) [0x33] (.number (3 : ℕ)) :=
  numberText 0x33 (by decide)

theorem deploy_shapes_recovered_one_node :
    (∃ out, parseDeployShapes Strtod.decimal
        (some ([0x20] ++ (graphText (ascii "x") [0x33] ++ [0x0a]))) = pure out ∧
      Recovered (graphRoot (ascii "x") 3) out) ∧
    entryOf [ascii "x", ascii "y"] ⟨[ascii "y"], [[1, 3]], []⟩ 1 = some 0 ∧
    (correlateInputShapes [ascii "x", ascii "y"] ⟨[ascii "y"], [[1, 3]], []⟩ [[], []])[1]? = some [1, 3] :=
  ⟨(deploy_shapes_recovered Strtod.decimal).1 [0x20] (graphText (ascii "x") [0x33]) [0x0a]
      (graphRoot (ascii "x") 3) (graphTables (ascii "x") 3) [.number 0] [.array [.number 0, .number 0]]
      (by simp [Blank, isWs]) (graph_text (Chars.plainText (plain_of_all rfl)) three_text)
      (by simp [Blank, isWs]) (graph_wellFormed _ 3 (by decide)),
    by decide,
    ((deploy_shapes_recovered Strtod.decimal).2.2 [ascii "x", ascii "y"] ⟨[ascii "y"], [[1, 3]], []⟩ [[], []]
      rfl rfl).1 1 (by decide)⟩

-- A row of numbers, however large.
def RowSpelt (rows : List JsonValue) (row : ℕ) : Prop :=
  ∃ dims, rows[row]? = some (.array dims) ∧ ∀ d ∈ dims, ∃ n : ℕ, n < 2 ^ 53 ∧ d = .number n

-- Some graph that uses these escapes, with rows of this kind, is not recovered.
def Missed (escapes : Escape → Prop) (Fit : List JsonValue → ℕ → Prop) : Prop :=
  ∃ text root t args heads, ValueText escapes (· = NAME) text root ∧ Layout root t args heads ∧
    (∀ an ∈ args, ∃ node row, ArgRow t an node row ∧ Fit t.rows row) ∧
    (∀ head ∈ heads, ∃ row, HeadRow t head row ∧ Fit t.rows row) ∧
    ¬ ∃ out, parseDeployShapes Strtod.decimal (some text) = pure out ∧ Recovered root out

-- An escaped carriage return in a name is read as the letter of the escape, and a dimension of
-- 70000 has the graph refused.
theorem deploy_shapes_missed : Missed (fun _ => True) RowFits ∧ Missed Decoded RowSpelt := by
  constructor
  · have hname : NameText (fun _ => True) [0x61, backslash, 0x72, 0x62] [0x61, 0x0d, 0x62] :=
      .plain (by decide) (by decide) (by decide)
        (.escape (e := .r) trivial (.plain (by decide) (by decide) (by decide) .nil))
    have hgraph := graph_wellFormed [0x61, 0x0d, 0x62] 3 (by decide)
    refine ⟨_, _, _, _, _, graph_text hname three_text, hgraph.layout, hgraph.inputs, hgraph.outputs, ?_⟩
    rintro ⟨out, hread, hout⟩
    have hread' : Option.bind (parseDeployShapes Strtod.decimal
        (some (graphText [0x61, backslash, 0x72, 0x62] [0x33]))) Except.toOption =
          some ⟨[[0x61, 0x72, 0x62]], [[1, 3]], [[1, 3]]⟩ := by decide +kernel
    rw [hread] at hread'
    have hsame : out = ⟨[[0x61, 0x72, 0x62]], [[1, 3]], [[1, 3]]⟩ := Option.some.inj hread'
    have hout' : resolve (graphRoot [0x61, 0x0d, 0x62] 3) =
        pure ⟨[[0x61, 0x0d, 0x62]], [[1, 3]], [[1, 3]]⟩ := by
      rfl
    have hother := pure_inj ((recovered_iff.mpr hout).symm.trans hout')
    rw [hsame] at hother
    exact absurd hother (by decide)
  · have hwide : ValueText Decoded (· = NAME) (ascii "70000") (.number (70000 : ℕ)) := by
      have h : ValueText Decoded (· = NAME) (sign false ++ ascii "70000")
          (.number (signed false (Library.Json.decimal (ascii "70000")))) :=
        .number false (by decide) (by decide +kernel) (by decide +kernel)
      exact h
    have hspelt : RowSpelt (graphTables (ascii "x") 70000).rows 0 := by
      refine ⟨[.number 1, .number 70000], rfl, fun d hd => ?_⟩
      rcases List.mem_pair.mp hd with rfl | rfl
      · exact ⟨1, by decide, rfl⟩
      · exact ⟨70000, by decide, rfl⟩
    refine ⟨_, _, _, _, _, graph_text (Chars.plainText (plain_of_all rfl)) hwide,
      graph_layout (ascii "x") 70000, ?_, ?_, ?_⟩
    · intro an han
      obtain rfl := List.mem_singleton.mp han
      exact ⟨_, 0, graph_argRow (ascii "x") 70000, hspelt⟩
    · intro head hhead
      obtain rfl := List.mem_singleton.mp hhead
      exact ⟨0, graph_headRow (ascii "x") 70000, hspelt⟩
    · rintro ⟨out, hread, -⟩
      have hread' : Option.bind (parseDeployShapes Strtod.decimal
          (some (graphText (ascii "x") (ascii "70000")))) Except.toOption = none := by decide +kernel
      rw [hread] at hread'
      cases hread'

end Example

end AlpSdk.DrpAi

import AlpSdk.DrpAi.JsonParser
import Mathlib.Data.List.DropRight

namespace AlpSdk.DrpAi

open Library.Json Library.Checked

variable {α β : Type} {strtod : Strtod} {escapes : Escape → Prop} {named : List UInt8 → Prop}

section Consumption

-- At least `bytes` of `n` bytes are taken.
def Takes (bytes n : ℕ) (p : Parsed (α × List UInt8)) : Prop :=
  Sound p fun out => out.2.length + bytes ≤ n

theorem Takes.mono {bytes bytes' n n' : ℕ} {p : Parsed (α × List UInt8)} (h : Takes bytes n p)
    (hle : n + bytes' ≤ n' + bytes) : Takes bytes' n' p :=
  sound_mono h fun _ _ => by omega

theorem takes_pure {bytes n : ℕ} {value : α} {rest : List UInt8} (h : rest.length + bytes ≤ n) :
    Takes bytes n (pure (value, rest)) := h

theorem takes_refused {bytes n : ℕ} : Takes bytes n (refused : Parsed (α × List UInt8)) := trivial

theorem Takes.bind {bytes n bytes' n' : ℕ} {p : Parsed (α × List UInt8)}
    {f : α × List UInt8 → Parsed (β × List UInt8)} (h : Takes bytes n p)
    (hf : ∀ value rest, rest.length + bytes ≤ n → Takes bytes' n' (f (value, rest))) :
    Takes bytes' n' (p >>= f) :=
  sound_seq h fun out hout => hf out.1 out.2 hout

theorem skipWs_length_le (s : List UInt8) : (skipWs s).length ≤ s.length :=
  (List.dropWhile_suffix isWs).length_le

theorem stringBody_takes (acc s : List UInt8) : Takes 1 s.length (stringBody acc s) := by
  fun_induction stringBody acc s with
  | case1 acc => exact takes_refused
  | case2 acc s => exact takes_pure (by simp)
  | case3 acc => exact takes_refused
  | case4 acc _ e s ih => exact ih.mono (by simp)
  | case5 acc b s _ _ ih => exact ih.mono (by simp)

theorem parseString_takes (s : List UInt8) : Takes 2 s.length (parseString s) := by
  cases s with
  | nil => exact takes_refused
  | cons b s =>
      simp only [parseString]
      split
      · exact (stringBody_takes [] s).mono (by simp)
      · exact takes_refused

theorem takes_drop {s : List UInt8} {n : ℕ} (hpos : 0 < n) (hle : n ≤ s.length) (v : α) :
    Takes 1 s.length (pure (v, s.drop n)) := by
  apply takes_pure
  rw [List.length_drop]
  omega

theorem parseBool_takes (s : List UInt8) : Takes 1 s.length (parseBool s) := by
  unfold parseBool
  split
  · rename_i h
    exact takes_drop (by decide) (List.isPrefixOf_iff_prefix.mp h).length_le _
  · split
    · rename_i h
      exact takes_drop (by decide) (List.isPrefixOf_iff_prefix.mp h).length_le _
    · exact takes_refused

theorem parseNull_takes (s : List UInt8) : Takes 1 s.length (parseNull s) := by
  unfold parseNull
  split
  · rename_i h
    exact takes_drop (by decide) (List.isPrefixOf_iff_prefix.mp h).length_le _
  · exact takes_refused

theorem parseNumber_takes (s : List UInt8) : Takes 1 s.length (parseNumber strtod s) := by
  simp only [parseNumber]
  split
  · exact takes_refused
  · rename_i hne
    split
    · exact takes_refused
    · exact takes_drop (List.length_pos_iff.mpr hne) (List.takeWhile_prefix isNumberByte).length_le _

theorem parseObject_takes {loop : List UInt8 → Parsed (JsonValue × List UInt8)}
    {s : List UInt8} (h : ∀ s', s'.length ≤ s.length → Takes 0 s'.length (loop s')) :
    Takes 0 s.length (parseObject loop s) := by
  have hskip := skipWs_length_le s
  unfold parseObject
  split
  · exact (h [] (by simp)).mono (by simp)
  · rename_i b rest hrest
    rw [hrest] at hskip
    split
    · simp only [List.length_cons] at hskip
      exact takes_pure (by omega)
    · exact (h _ hskip).mono (by omega)

theorem parseArray_takes {loop : List UInt8 → Parsed (JsonValue × List UInt8)}
    {s : List UInt8} (h : ∀ s', s'.length ≤ s.length → Takes 0 s'.length (loop s')) :
    Takes 0 s.length (parseArray loop s) := by
  have hskip := skipWs_length_le s
  unfold parseArray
  split
  · exact (h [] (by simp)).mono (by simp)
  · rename_i b rest hrest
    rw [hrest] at hskip
    split
    · simp only [List.length_cons] at hskip
      exact takes_pure (by omega)
    · exact (h _ hskip).mono (by omega)

-- The depth is never used up. It goes down with each call, and the text by a byte between
-- two calls of `parseValue`.
theorem parse_takes (fuel : ℕ) :
    (∀ s, 2 * s.length < fuel → Takes 1 s.length (parseValue strtod fuel s)) ∧
    (∀ members s, 2 * s.length + 1 < fuel → Takes 0 s.length (parseMembers strtod fuel members s)) ∧
    ∀ items s, 2 * s.length + 1 < fuel → Takes 0 s.length (parseItems strtod fuel items s) := by
  induction fuel with
  | zero => exact ⟨fun _ h => absurd h (by omega), fun _ _ h => absurd h (by omega),
      fun _ _ h => absurd h (by omega)⟩
  | succ fuel ih =>
      obtain ⟨ihValue, ihMembers, ihItems⟩ := ih
      refine ⟨fun s hs => ?_, fun members s hs => ?_, fun items s hs => ?_⟩
      · have hskip := skipWs_length_le s
        rw [parseValue]
        split
        · exact takes_refused
        · rename_i b rest hrest
          rw [hrest, List.length_cons] at hskip
          split
          · exact (parseObject_takes fun s' h' => ihMembers [] s' (by omega)).mono (by omega)
          · split
            · exact (parseArray_takes fun s' h' => ihItems [] s' (by omega)).mono (by omega)
            · split
              · apply (parseString_takes (b :: rest)).bind
                intro string after hafter
                simp only [List.length_cons] at hafter
                exact takes_pure (show after.length + 1 ≤ s.length by omega)
              · split
                · exact (parseBool_takes (b :: rest)).mono (by simp; omega)
                · split
                  · exact (parseNull_takes (b :: rest)).mono (by simp; omega)
                  · exact (parseNumber_takes (b :: rest)).mono (by simp; omega)
      · have hskip := skipWs_length_le s
        rw [parseMembers]
        apply (parseString_takes (skipWs s)).bind
        intro key rest hrest
        have hskip' := skipWs_length_le rest
        simp only
        split
        · exact takes_refused
        · rename_i b rest' hrest'
          rw [hrest', List.length_cons] at hskip'
          split
          · exact takes_refused
          · apply (ihValue rest' (by omega)).bind
            intro val after hafter
            have hskip'' := skipWs_length_le after
            simp only
            split
            · exact takes_refused
            · rename_i b' after' hafter'
              rw [hafter', List.length_cons] at hskip''
              split
              · exact (ihMembers _ after' (by omega)).mono (by omega)
              · split
                · exact takes_pure (by omega)
                · exact takes_refused
      · rw [parseItems]
        apply (ihValue s (by omega)).bind
        intro val after hafter
        have hskip := skipWs_length_le after
        simp only
        split
        · exact takes_refused
        · rename_i b after' hafter'
          rw [hafter', List.length_cons] at hskip
          split
          · exact (ihItems _ after' (by omega)).mono (by omega)
          · split
            · exact takes_pure (by omega)
            · exact takes_refused

end Consumption

section Reading

mutual

-- What the parser reads of a value: all of it but the strings no key names.
inductive Agree (named : List UInt8 → Prop) : JsonValue → JsonValue → Prop where
  | null : Agree named .null .null
  | bool (b : Bool) : Agree named (.bool b) (.bool b)
  | number (n : ℤ) : Agree named (.number n) (.number n)
  | string (s s' : List UInt8) : Agree named (.string s) (.string s')
  | array {items items' : List JsonValue} (h : List.Forall₂ (Agree named) items items') :
      Agree named (.array items) (.array items')
  | object {members members' : List (List UInt8 × JsonValue)}
      (h : List.Forall₂ (AgreeMember named) members members') :
      Agree named (.object members) (.object members')

inductive AgreeMember (named : List UInt8 → Prop) :
    List UInt8 × JsonValue → List UInt8 × JsonValue → Prop where
  | member {key : List UInt8} {v v' : JsonValue} (h : Agree named v v')
      (hnamed : named key → ∀ s, v = .string s → v' = .string s) :
      AgreeMember named (key, v) (key, v')

end

-- The escapes the parser decodes.
def Decoded (e : Escape) : Prop := e ≠ .b ∧ e ≠ .f ∧ e ≠ .r

theorem unescape_letter {e : Escape} (h : Decoded e) : unescape e.letter = e.meaning := by
  cases e with
  | b => exact absurd rfl h.1
  | f => exact absurd rfl h.2.1
  | r => exact absurd rfl h.2.2
  | _ => decide

theorem stringBody_quote (acc s : List UInt8) : stringBody acc (quote :: s) = pure (acc, s) := by
  rw [stringBody.eq_def]
  rfl

theorem stringBody_plain {b : UInt8} (hquote : b ≠ quote) (hback : b ≠ backslash)
    (acc s : List UInt8) : stringBody acc (b :: s) = stringBody (acc ++ [b]) s := by
  rw [stringBody.eq_def]
  simp only [if_neg hquote, if_neg hback]

theorem stringBody_escape (acc s : List UInt8) (e : UInt8) :
    stringBody acc (backslash :: e :: s) = stringBody (acc ++ [unescape e]) s := by
  rw [stringBody.eq_def]
  rfl

theorem hex_plain {b : UInt8} (h : isHex b) : b ≠ quote ∧ b ≠ backslash := by
  constructor <;> rintro rfl <;> exact absurd h (by decide)

theorem stringBody_string {t s : List UInt8} (h : StringText t s) (acc rest : List UInt8) :
    ∃ read, stringBody acc (t ++ quote :: rest) = pure (acc ++ read, rest) := by
  induction h generalizing acc with
  | nil => exact ⟨[], by simp [stringBody_quote]⟩
  | @plain b t s hquote hback _ _ ih =>
      obtain ⟨read, hread⟩ := ih (acc ++ [b])
      refine ⟨b :: read, ?_⟩
      rw [List.cons_append, stringBody_plain hquote hback, hread]
      simp
  | @escape e t s _ _ ih =>
      obtain ⟨read, hread⟩ := ih (acc ++ [unescape e.letter])
      refine ⟨unescape e.letter :: read, ?_⟩
      rw [List.cons_append, List.cons_append, stringBody_escape, hread]
      simp
  | @unicode h₁ h₂ h₃ h₄ t s _ hex₁ hex₂ hex₃ hex₄ _ ih =>
      obtain ⟨read, hread⟩ := ih (acc ++ [unescape 0x75] ++ [h₁] ++ [h₂] ++ [h₃] ++ [h₄])
      refine ⟨unescape 0x75 :: h₁ :: h₂ :: h₃ :: h₄ :: read, ?_⟩
      simp only [List.cons_append]
      rw [stringBody_escape, stringBody_plain (hex_plain hex₁).1 (hex_plain hex₁).2,
        stringBody_plain (hex_plain hex₂).1 (hex_plain hex₂).2,
        stringBody_plain (hex_plain hex₃).1 (hex_plain hex₃).2,
        stringBody_plain (hex_plain hex₄).1 (hex_plain hex₄).2, hread]
      simp

theorem stringBody_name {t s : List UInt8} (h : NameText Decoded t s) (acc rest : List UInt8) :
    stringBody acc (t ++ quote :: rest) = pure (acc ++ s, rest) := by
  induction h generalizing acc with
  | nil => simp [stringBody_quote]
  | plain hquote hback _ _ ih =>
      rw [List.cons_append, stringBody_plain hquote hback, ih]
      simp
  | escape hdecoded _ ih =>
      rw [List.cons_append, List.cons_append, stringBody_escape, unescape_letter hdecoded, ih]
      simp
  | unicode hunits => exact hunits.elim

theorem parseString_quoted (t rest : List UInt8) :
    parseString (quoted t ++ rest) = stringBody [] (t ++ quote :: rest) := by
  simp [parseString, quoted]

theorem skipWs_blank {w : List UInt8} (hw : Blank w) (s : List UInt8) :
    skipWs (w ++ s) = skipWs s := by
  unfold skipWs
  rw [List.dropWhile_append_of_pos hw]

theorem skipWs_cons {b : UInt8} (hb : isWs b = false) (s : List UInt8) : skipWs (b :: s) = b :: s := by
  simp [skipWs, hb]

theorem skipWs_skipWs (s : List UInt8) : skipWs (skipWs s) = skipWs s := by
  unfold skipWs
  exact List.dropWhile_idempotent _ _

theorem parseValue_skipWs (fuel : ℕ) (s : List UInt8) :
    parseValue strtod fuel (skipWs s) = parseValue strtod fuel s := by
  cases fuel with
  | zero => simp [parseValue]
  | succ fuel => rw [parseValue, parseValue, skipWs_skipWs]

theorem parseMembers_skipWs (fuel : ℕ) (members : List (List UInt8 × JsonValue)) (s : List UInt8) :
    parseMembers strtod fuel members (skipWs s) = parseMembers strtod fuel members s := by
  cases fuel with
  | zero => simp [parseMembers]
  | succ fuel => rw [parseMembers, parseMembers, skipWs_skipWs]

theorem parseItems_skipWs (fuel : ℕ) (items : List JsonValue) (s : List UInt8) :
    parseItems strtod fuel items (skipWs s) = parseItems strtod fuel items s := by
  cases fuel with
  | zero => simp [parseItems]
  | succ fuel => rw [parseItems, parseItems, parseValue_skipWs]

theorem digit_not_ws {b : UInt8} (h : isDigit b = true) : isWs b = false := by
  by_contra hws
  simp only [isWs, Bool.not_eq_false, Bool.or_eq_true, decide_eq_true_eq] at hws
  rcases hws with ((rfl | rfl) | rfl) | rfl <;> exact absurd h (by decide)

-- The first byte of a value, by its kind.
theorem valueText_head {t : List UInt8} {v : JsonValue} (h : ValueText escapes named t v) :
    ∃ b t', t = b :: t' ∧ isWs b = false ∧ b ≠ rbracket := by
  cases h with
  | null => exact ⟨_, _, rfl, by decide, by decide⟩
  | bool b => cases b <;> exact ⟨_, _, rfl, by decide, by decide⟩
  | @number neg digits hne hdigits _ =>
      cases neg with
      | true => exact ⟨_, _, rfl, by decide, by decide⟩
      | false =>
          cases digits with
          | nil => exact absurd rfl hne
          | cons d digits =>
              have hd := hdigits d (by simp)
              refine ⟨d, digits, rfl, digit_not_ws hd, ?_⟩
              rintro rfl
              exact absurd hd (by decide)
  | string _ => exact ⟨_, _, rfl, by decide, by decide⟩
  | emptyArray _ => exact ⟨_, _, rfl, by decide, by decide⟩
  | array _ => exact ⟨_, _, rfl, by decide, by decide⟩
  | emptyObject _ => exact ⟨_, _, rfl, by decide, by decide⟩
  | object _ => exact ⟨_, _, rfl, by decide, by decide⟩

theorem endsNumber_stops {b : UInt8} (h : endsNumber b) : isNumberByte b = false := by
  rcases h with hws | rfl | rfl | rfl
  · simp only [isWs, Bool.or_eq_true, decide_eq_true_eq] at hws
    rcases hws with ((rfl | rfl) | rfl) | rfl <;> decide
  · decide
  · decide
  · decide

theorem takeWhile_token {token rest : List UInt8} (htoken : ∀ b ∈ token, isNumberByte b = true)
    (hends : ∀ b ∈ rest.head?, endsNumber b) :
    (token ++ rest).takeWhile isNumberByte = token := by
  rw [List.takeWhile_append_of_pos htoken]
  cases rest with
  | nil => simp
  | cons b rest =>
      have hb := endsNumber_stops (hends b (by simp))
      simp [hb]

theorem parseNumber_integer {neg : Bool} {digits rest : List UInt8} (hne : digits ≠ [])
    (hdigits : ∀ d ∈ digits, isDigit d = true) (hsmall : decimal digits < 2 ^ 53)
    (hends : ∀ b ∈ rest.head?, endsNumber b) :
    parseNumber strtod (sign neg ++ (digits ++ rest)) =
      pure (.number (signed neg (decimal digits)), rest) := by
  have htoken : ∀ b ∈ sign neg ++ digits, isNumberByte b = true := by
    intro b hb
    rcases List.mem_append.mp hb with hb | hb
    · cases neg with
      | true =>
          cases List.mem_singleton.mp hb
          decide
      | false => simp [sign] at hb
    · simp [isNumberByte, hdigits b hb]
  have htake := takeWhile_token htoken hends
  have hrun := strtod.integer neg digits rest hne hdigits hsmall hends
  rw [List.append_assoc] at htake
  have hnonempty : sign neg ++ digits ≠ [] := by simp [hne]
  simp only [parseNumber, htake, if_neg hnonempty, hrun, ne_eq, not_true_eq_false, if_false]
  rw [← List.append_assoc, List.drop_left]

-- A value that starts with a minus or a digit is a number.
theorem parseValue_number {b : UInt8} (hb : b = minus ∨ isDigit b = true) (fuel : ℕ)
    (s : List UInt8) : parseValue strtod (fuel + 1) (b :: s) = parseNumber strtod (b :: s) := by
  have hne : ∀ c : UInt8, isDigit c = false → c ≠ minus → b ≠ c := by
    rintro c hc hminus rfl
    rcases hb with rfl | hb
    · exact hminus rfl
    · rw [hb] at hc
      cases hc
  have hws : isWs b = false := by
    rcases hb with rfl | hb
    · decide
    · exact digit_not_ws hb
  rw [parseValue, skipWs_cons hws]
  simp only
  rw [if_neg (hne _ (by decide) (by decide)), if_neg (hne _ (by decide) (by decide)),
    if_neg (hne _ (by decide) (by decide)),
    if_neg (fun h => h.elim (hne _ (by decide) (by decide)) (hne _ (by decide) (by decide))),
    if_neg (hne _ (by decide) (by decide))]

theorem parseValue_array (fuel : ℕ) (s : List UInt8) :
    parseValue strtod (fuel + 1) (lbracket :: s) = parseArray (parseItems strtod fuel []) s := by
  rw [parseValue, skipWs_cons (by decide)]
  simp [lbrace, lbracket]

theorem parseValue_object (fuel : ℕ) (s : List UInt8) :
    parseValue strtod (fuel + 1) (lbrace :: s) = parseObject (parseMembers strtod fuel []) s := by
  rw [parseValue, skipWs_cons (by decide)]
  simp

theorem parseArray_loop {loop : List UInt8 → Parsed (JsonValue × List UInt8)} {w t : List UInt8}
    {b : UInt8} (hw : Blank w) (hws : isWs b = false) (hb : b ≠ rbracket) :
    parseArray loop (w ++ b :: t) = loop (skipWs (w ++ b :: t)) := by
  unfold parseArray
  rw [skipWs_blank hw, skipWs_cons hws]
  simp only
  rw [if_neg hb]

theorem parseObject_loop {loop : List UInt8 → Parsed (JsonValue × List UInt8)} {w t : List UInt8}
    (hw : Blank w) : parseObject loop (w ++ quote :: t) = loop (skipWs (w ++ quote :: t)) := by
  unfold parseObject
  rw [skipWs_blank hw, skipWs_cons (by decide)]
  simp only
  rw [if_neg (by decide)]

theorem head_blank {w rest : List UInt8} {b : UInt8} (hw : Blank w) (hb : endsNumber b) :
    ∀ c ∈ (w ++ b :: rest).head?, endsNumber c := by
  cases w with
  | nil =>
      intro c hc
      simp only [List.nil_append, List.head?_cons, Option.mem_def, Option.some.injEq] at hc
      exact hc ▸ hb
  | cons d w =>
      intro c hc
      simp only [List.cons_append, List.head?_cons, Option.mem_def, Option.some.injEq] at hc
      exact Or.inl (hc ▸ hw d (by simp))

theorem itemsText_head {t : List UInt8} {items : List JsonValue}
    (h : ItemsText escapes named t items) :
    ∃ w b t', t = w ++ b :: t' ∧ Blank w ∧ isWs b = false ∧ b ≠ rbracket := by
  cases h with
  | @last w t w' v hw hvalue hw' =>
      obtain ⟨b, t', rfl, hb⟩ := valueText_head hvalue
      exact ⟨w, b, t' ++ w', by simp, hw, hb⟩
  | @next w t w' t'' v items hw hvalue hw' _ =>
      obtain ⟨b, t', rfl, hb⟩ := valueText_head hvalue
      exact ⟨w, b, t' ++ (w' ++ comma :: t''), by simp, hw, hb⟩

theorem membersText_head {t : List UInt8} {members : List (List UInt8 × JsonValue)}
    (h : MembersText escapes named t members) : ∃ w t', t = w ++ quote :: t' ∧ Blank w := by
  have hmember : ∀ {t m}, MemberText escapes named t m → ∃ w t', t = w ++ quote :: t' ∧ Blank w := by
    intro t m h
    cases h with
    | @member w k w₁ w₂ t key v hw _ _ _ _ _ =>
        exact ⟨w, k ++ quote :: (w₁ ++ colon :: (w₂ ++ t)), by simp [quoted], hw⟩
  cases h with
  | @last t w' m h _ =>
      obtain ⟨w, t', rfl, hw⟩ := hmember h
      exact ⟨w, t' ++ w', by simp, hw⟩
  | @next t w' t'' m members h _ _ =>
      obtain ⟨w, t', rfl, hw⟩ := hmember h
      exact ⟨w, t' ++ (w' ++ comma :: t''), by simp, hw⟩

theorem parseValue_quoted (fuel : ℕ) (t rest : List UInt8) :
    parseValue strtod (fuel + 1) (quoted t ++ rest) =
      (stringBody [] (t ++ quote :: rest) >>= fun out => pure (.string out.1, out.2)) := by
  have hquoted : quoted t ++ rest = quote :: (t ++ quote :: rest) := by simp [quoted]
  rw [hquoted, parseValue, skipWs_cons (by decide)]
  simp [lbrace, lbracket, quote, parseString]

-- What the parser makes of the texts of values at a given depth.
def ReadsValues (strtod : Strtod) (named : List UInt8 → Prop) (fuel : ℕ) : Prop :=
  ∀ t v rest, ValueText Decoded named t v → (∀ b ∈ rest.head?, endsNumber b) →
    2 * (t ++ rest).length < fuel →
    ∃ read, Agree named v read ∧ parseValue strtod fuel (t ++ rest) = pure (read, rest)

theorem parseItems_item {fuel : ℕ} (hvalues : ReadsValues strtod named fuel) {w t w' after : List UInt8}
    {v : JsonValue} (hw : Blank w) (h : ValueText Decoded named t v) (hw' : Blank w') {b : UInt8}
    (hb : b = comma ∨ b = rbracket) (acc : List JsonValue)
    (hfuel : 2 * (t ++ (w' ++ b :: after)).length < fuel) :
    ∃ read, Agree named v read ∧
      parseItems strtod (fuel + 1) acc (w ++ (t ++ (w' ++ b :: after))) =
        if b = comma then parseItems strtod fuel (acc ++ [read]) after
        else pure (.array (acc ++ [read]), after) := by
  have hends : endsNumber b := hb.elim (fun h => Or.inr (Or.inl h)) fun h => Or.inr (Or.inr (Or.inl h))
  have hws : isWs b = false := by rcases hb with rfl | rfl <;> decide
  obtain ⟨read, hagree, hread⟩ := hvalues t v _ h (head_blank hw' hends) hfuel
  refine ⟨read, hagree, ?_⟩
  rw [parseItems, ← parseValue_skipWs, skipWs_blank hw, parseValue_skipWs, hread]
  simp only [pure_bind, skipWs_blank hw', skipWs_cons hws]
  rcases hb with rfl | rfl
  · rfl
  · rfl

theorem parseMembers_member {fuel : ℕ} (hvalues : ReadsValues strtod named fuel)
    {t w' after : List UInt8} {m : List UInt8 × JsonValue} (h : MemberText Decoded named t m)
    (hw' : Blank w') {b : UInt8} (hb : b = comma ∨ b = rbrace)
    (acc : List (List UInt8 × JsonValue)) (hfuel : 2 * (t ++ (w' ++ b :: after)).length < fuel) :
    ∃ read, AgreeMember named m (m.1, read) ∧
      parseMembers strtod (fuel + 1) acc (t ++ (w' ++ b :: after)) =
        if b = comma then parseMembers strtod fuel (acc ++ [(m.1, read)]) after
        else pure (.object (acc ++ [(m.1, read)]), after) := by
  have hends : endsNumber b := hb.elim (fun h => Or.inr (Or.inl h)) fun h => Or.inr (Or.inr (Or.inr h))
  have hws : isWs b = false := by rcases hb with rfl | rfl <;> decide
  cases h with
  | @member w k w₁ w₂ t key v hw hkey hw₁ hw₂ hvalue hnamed =>
      have hshape : w ++ (quoted k ++ (w₁ ++ colon :: (w₂ ++ t))) ++ (w' ++ b :: after) =
          w ++ (quoted k ++ (w₁ ++ colon :: (w₂ ++ (t ++ (w' ++ b :: after))))) := by simp
      rw [hshape] at hfuel ⊢
      have hlength : 2 * (t ++ (w' ++ b :: after)).length < fuel := by
        simp only [List.length_append, List.length_cons] at hfuel ⊢
        omega
      obtain ⟨read, hagree, hread⟩ := hvalues t v _ hvalue (head_blank hw' hends) hlength
      refine ⟨read, ⟨hagree, ?_⟩, ?_⟩
      · rintro hkeyed s rfl
        obtain ⟨n, rfl, hname⟩ := hnamed hkeyed s rfl
        cases fuel with
        | zero => omega
        | succ fuel =>
            rw [parseValue_quoted, stringBody_name hname] at hread
            simp only [pure_bind, List.nil_append] at hread
            exact (congrArg Prod.fst (pure_inj hread)).symm
      · have hskip : skipWs (w ++ (quoted k ++ (w₁ ++ colon :: (w₂ ++ (t ++ (w' ++ b :: after)))))) =
            quoted k ++ (w₁ ++ colon :: (w₂ ++ (t ++ (w' ++ b :: after)))) := by
          rw [skipWs_blank hw]
          exact skipWs_cons (by decide) _
        rw [parseMembers, hskip, parseString_quoted, stringBody_name hkey]
        simp only [pure_bind, List.nil_append, skipWs_blank hw₁,
          skipWs_cons (show isWs colon = false by decide)]
        rw [if_neg (by simp), ← parseValue_skipWs, skipWs_blank hw₂, parseValue_skipWs, hread]
        simp only [pure_bind, skipWs_blank hw', skipWs_cons hws]
        rcases hb with rfl | rfl
        · rfl
        · rfl

-- Every text of a value is read, whatever stands behind it.
theorem parse_reads (fuel : ℕ) :
    ReadsValues strtod named fuel ∧
    (∀ t members acc rest, MembersText Decoded named t members →
      2 * (t ++ rbrace :: rest).length + 1 < fuel →
      ∃ read, List.Forall₂ (AgreeMember named) members read ∧
        parseMembers strtod fuel acc (t ++ rbrace :: rest) = pure (.object (acc ++ read), rest)) ∧
    ∀ t items acc rest, ItemsText Decoded named t items →
      2 * (t ++ rbracket :: rest).length + 1 < fuel →
      ∃ read, List.Forall₂ (Agree named) items read ∧
        parseItems strtod fuel acc (t ++ rbracket :: rest) = pure (.array (acc ++ read), rest) := by
  induction fuel with
  | zero => exact ⟨fun _ _ _ _ _ h => absurd h (by omega), fun _ _ _ _ _ h => absurd h (by omega),
      fun _ _ _ _ _ h => absurd h (by omega)⟩
  | succ fuel ih =>
      obtain ⟨ihValue, ihMembers, ihItems⟩ := ih
      refine ⟨fun t v rest htext hends hfuel => ?_, fun t members acc rest htext hfuel => ?_,
        fun t items acc rest htext hfuel => ?_⟩
      · cases htext with
        | null =>
            refine ⟨.null, .null, ?_⟩
            simp [parseValue, nullText, skipWs_cons, isWs, parseNull, lbrace, lbracket, quote]
        | bool b =>
            refine ⟨.bool b, .bool b, ?_⟩
            cases b <;>
              simp [parseValue, boolText, skipWs_cons, isWs, parseBool, lbrace, lbracket, quote]
        | @number neg digits hne hdigits hsmall =>
            refine ⟨_, .number _, ?_⟩
            rw [List.append_assoc, ← parseNumber_integer hne hdigits hsmall hends]
            cases neg with
            | true => exact parseValue_number (Or.inl rfl) fuel _
            | false =>
                cases digits with
                | nil => exact absurd rfl hne
                | cons d digits => exact parseValue_number (Or.inr (hdigits d (by simp))) fuel _
        | string hstring =>
            obtain ⟨read, hread⟩ := stringBody_string hstring [] rest
            refine ⟨.string read, .string _ _, ?_⟩
            rw [parseValue_quoted, hread]
            rfl
        | @emptyArray w hw =>
            refine ⟨.array [], .array .nil, ?_⟩
            have hshape : lbracket :: (w ++ [rbracket]) ++ rest = lbracket :: (w ++ rbracket :: rest) := by
              simp
            rw [hshape, parseValue_array, parseArray, skipWs_blank hw, skipWs_cons (by decide)]
            rfl
        | @array t items hitems =>
            have hshape : lbracket :: (t ++ [rbracket]) ++ rest = lbracket :: (t ++ rbracket :: rest) := by
              simp
            rw [hshape] at hfuel ⊢
            simp only [List.length_cons] at hfuel
            obtain ⟨read, hagree, hread⟩ := ihItems t items [] rest hitems (by
              simp only [List.length_append, List.length_cons] at hfuel ⊢
              omega)
            refine ⟨.array read, .array hagree, ?_⟩
            obtain ⟨w, b, t', rfl, hw, hws, hb⟩ := itemsText_head hitems
            simp only [List.append_assoc, List.cons_append] at hread ⊢
            rw [parseValue_array, parseArray_loop hw hws hb, parseItems_skipWs, hread]
            rfl
        | @emptyObject w hw =>
            refine ⟨.object [], .object .nil, ?_⟩
            have hshape : lbrace :: (w ++ [rbrace]) ++ rest = lbrace :: (w ++ rbrace :: rest) := by
              simp
            rw [hshape, parseValue_object, parseObject, skipWs_blank hw, skipWs_cons (by decide)]
            rfl
        | @object t members hmembers =>
            have hshape : lbrace :: (t ++ [rbrace]) ++ rest = lbrace :: (t ++ rbrace :: rest) := by
              simp
            rw [hshape] at hfuel ⊢
            simp only [List.length_cons] at hfuel
            obtain ⟨read, hagree, hread⟩ := ihMembers t members [] rest hmembers (by
              simp only [List.length_append, List.length_cons] at hfuel ⊢
              omega)
            refine ⟨.object read, .object hagree, ?_⟩
            obtain ⟨w, t', rfl, hw⟩ := membersText_head hmembers
            simp only [List.append_assoc, List.cons_append] at hread ⊢
            rw [parseValue_object, parseObject_loop hw, parseMembers_skipWs, hread]
            rfl
      · cases htext with
        | @last t w' m hmember hw' =>
            simp only [List.append_assoc] at hfuel ⊢
            obtain ⟨read, hagree, hread⟩ := parseMembers_member ihValue hmember hw' (Or.inr rfl) acc
              (show 2 * (t ++ (w' ++ rbrace :: rest)).length < fuel by omega)
            refine ⟨[(m.1, read)], .cons hagree .nil, ?_⟩
            rw [hread, if_neg (by decide)]
        | @next t w' t' m members hmember hw' hmore =>
            simp only [List.append_assoc, List.cons_append] at hfuel ⊢
            obtain ⟨read, hagree, hread⟩ := parseMembers_member ihValue hmember hw' (Or.inl rfl) acc
              (show 2 * (t ++ (w' ++ comma :: (t' ++ rbrace :: rest))).length < fuel by omega)
            obtain ⟨reads, hagrees, hreads⟩ := ihMembers t' members (acc ++ [(m.1, read)]) rest hmore (by
              simp only [List.length_append, List.length_cons] at hfuel ⊢
              omega)
            refine ⟨(m.1, read) :: reads, .cons hagree hagrees, ?_⟩
            rw [hread, if_pos rfl, hreads]
            simp
      · cases htext with
        | @last w t w' v hw hvalue hw' =>
            simp only [List.append_assoc] at hfuel ⊢
            obtain ⟨read, hagree, hread⟩ := parseItems_item ihValue hw hvalue hw' (Or.inr rfl) acc
              (show 2 * (t ++ (w' ++ rbracket :: rest)).length < fuel by
                simp only [List.length_append, List.length_cons] at hfuel ⊢
                omega)
            refine ⟨[read], .cons hagree .nil, ?_⟩
            rw [hread, if_neg (by decide)]
        | @next w t w' t' v items hw hvalue hw' hmore =>
            simp only [List.append_assoc, List.cons_append] at hfuel ⊢
            obtain ⟨read, hagree, hread⟩ := parseItems_item ihValue hw hvalue hw' (Or.inl rfl) acc
              (show 2 * (t ++ (w' ++ comma :: (t' ++ rbracket :: rest))).length < fuel by
                simp only [List.length_append, List.length_cons] at hfuel ⊢
                omega)
            obtain ⟨reads, hagrees, hreads⟩ := ihItems t' items (acc ++ [read]) rest hmore (by
              simp only [List.length_append, List.length_cons] at hfuel ⊢
              omega)
            refine ⟨read :: reads, .cons hagree hagrees, ?_⟩
            rw [hread, if_pos rfl, hreads]
            simp

end Reading

end AlpSdk.DrpAi

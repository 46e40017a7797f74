import Mathlib.Data.List.Basic
import Ultrav.Json

/-!
# JSON texts

* `read_render` — **round trip**: a valid container is read back from its text.
* `unquote_quote` — a string is read back from what is written between its quotes.
* `read_cut` — a container is not read before its last character is there.
-/

namespace Ultrav.Json

namespace State

variable {s s' : State}

theorem run_append (s : State) (as bs : List Char) :
    s.run (as ++ bs) = (s.run as).bind fun s' => s'.run bs := by
  induction as generalizing s with
  | nil => rfl
  | cons c as ih =>
    rw [List.cons_append, run, run, Option.bind_assoc]
    congr 1
    funext s'
    exact ih s'

/-- Reading a first character. -/
theorem run_cons {c : Char} (h : s.step c = some s') (cs : List Char) :
    s.run (c :: cs) = s'.run cs := by
  rw [run, h, Option.bind_some]

/-! ## Scalars -/

theorem run_number {p q : Part} {cs : List Char} (h : p.run cs = some q) (raw : List Char)
    (st : List Frame) :
    (⟨.number p raw, st⟩ : State).run cs = some ⟨.number q (raw ++ cs), st⟩ := by
  induction cs generalizing p raw with
  | nil =>
    cases h
    rw [List.append_nil]
    rfl
  | cons c cs ih =>
    obtain ⟨r, hr, hrun⟩ := Option.bind_eq_some_iff.mp h
    have hstep : (⟨.number p raw, st⟩ : State).step c = some ⟨.number r (raw ++ [c]), st⟩ := by
      simp only [step, stepNumber, hr]
      rfl
    rw [run_cons hstep, ih hrun, List.append_assoc]
    rfl

/-- The first character of a number. -/
theorem step_number {c : Char} {p : Part} (h : Part.first c = some p) (st : List Frame) :
    (⟨.value, st⟩ : State).step c = some ⟨.number p [c], st⟩ := by
  have hne : ∀ d : Char, Part.first d = none → c ≠ d := by
    rintro d hd rfl
    cases h.symm.trans hd
  have hspace : space c = false := by
    simp only [space, hne ' ' rfl, hne '\t' rfl, hne '\r' rfl, hne '\n' rfl, decide_false]
    rfl
  simp only [step, stepValue]
  rw [hspace, if_neg (hne '"' rfl), if_neg (hne '[' rfl), if_neg (hne '\x7b' rfl),
    if_neg (hne 't' rfl), if_neg (hne 'f' rfl), if_neg (hne 'n' rfl), h]
  rfl

theorem run_string {e f : Esc} {cs : List Char} (h : e.run cs = some f) (isKey : Bool)
    (raw : List Char) (st : List Frame) :
    (⟨.string isKey e raw, st⟩ : State).run cs = some ⟨.string isKey f (raw ++ cs), st⟩ := by
  induction cs generalizing e raw with
  | nil =>
    cases h
    rw [List.append_nil]
    rfl
  | cons c cs ih =>
    obtain ⟨g, hg, hrun⟩ := Option.bind_eq_some_iff.mp h
    have hquote : ¬ (decide (e = .plain) && decide (c = '"')) = true := by
      rintro h
      simp only [Bool.and_eq_true, decide_eq_true_eq] at h
      obtain ⟨rfl, rfl⟩ := h
      cases hg
    have hstep : (⟨.string isKey e raw, st⟩ : State).step c =
        some ⟨.string isKey g (raw ++ [c]), st⟩ := by
      simp only [step, stepString]
      rw [if_neg hquote, hg]
      rfl
    rw [run_cons hstep, ih hrun, List.append_assoc]
    rfl

/-- A string, from quote to quote. -/
theorem run_quoted {raw : List Char} (h : stringOk raw = true) (m : Mode) (st : List Frame)
    (isKey : Bool) (hm : (⟨m, st⟩ : State).step '"' = some ⟨.string isKey .plain [], st⟩)
    (cs : List Char) :
    (⟨m, st⟩ : State).run ('"' :: (raw ++ '"' :: cs)) =
      (if isKey then (⟨m, st⟩ : State).putKey raw
        else some ((⟨m, st⟩ : State).put (.string raw))).bind fun s => s.run cs := by
  rw [run_cons hm, run_append, run_string (of_decide_eq_true h), Option.bind_some]
  rfl

/-! ## White space -/

/-- Nothing happens at white space. -/
def Idle (s : State) : Prop := ∀ c, space c = true → s.step c = some s

theorem run_newline (h : s.Idle) (depth : ℕ) (cs : List Char) :
    s.run (newline depth ++ cs) = s.run cs := by
  have hspaces : ∀ n, s.run (List.replicate n ' ' ++ cs) = s.run cs := by
    intro n
    induction n with
    | zero => rfl
    | succ n ih => rw [List.replicate_succ, List.cons_append, run_cons (h ' ' rfl), ih]
  rw [newline, List.cons_append, run_cons (h '\n' rfl), hspaces]

theorem idle_value (st : List Frame) : Idle ⟨.value, st⟩ := fun _ hc => if_pos hc

theorem idle_key (st : List Frame) : Idle ⟨.key, st⟩ := fun _ hc => if_pos hc

theorem idle_after (st : List Frame) : Idle ⟨.after, st⟩ := fun _ hc => if_pos hc

theorem idle_first (f : Frame) (st : List Frame) : Idle ⟨.first, f :: st⟩ := by
  intro c hc
  cases f with
  | array items =>
    have hclose : c ≠ ']' := by
      rintro rfl
      cases hc
    exact (if_neg hclose).trans (if_pos hc)
  | object members key =>
    have hclose : c ≠ '}' := by
      rintro rfl
      cases hc
    exact (if_neg hclose).trans (if_pos hc)

/-! ## Values -/

/-- What a number is followed by. -/
def Delimited (rest : List Char) : Prop := ∃ c cs, rest = c :: cs ∧ (c = ',' ∨ c = '\n')

theorem delimited_newline (depth : ℕ) (cs : List Char) : Delimited (newline depth ++ cs) :=
  ⟨'\n', _, rfl, .inr rfl⟩

theorem delimited_renderItems (depth : ℕ) (vs : List Value) {rest : List Char}
    (h : Delimited rest) : Delimited (renderItems depth vs ++ rest) := by
  cases vs with
  | nil => exact h
  | cons v vs => exact ⟨',', _, rfl, .inl rfl⟩

theorem delimited_renderMembers (depth : ℕ) (ms : List (List Char × Value)) {rest : List Char}
    (h : Delimited rest) : Delimited (renderMembers depth ms ++ rest) := by
  cases ms with
  | nil => exact h
  | cons m ms => exact ⟨',', _, rfl, .inl rfl⟩

/-- After a value, white space, a comma or a closing bracket. -/
theorem step_put (s : State) (v : Value) (c : Char) : (s.put v).step c = (s.put v).stepAfter c := by
  rw [put]
  split <;> rfl

/-- A number ends where it is delimited. -/
theorem run_delimited {p : Part} (hp : p.final = true) (raw : List Char) (st : List Frame)
    {rest : List Char} (h : Delimited rest) :
    (⟨.number p raw, st⟩ : State).run rest =
      ((⟨.value, st⟩ : State).put (.number raw)).run rest := by
  obtain ⟨c, cs, rfl, hc⟩ := h
  have hnext : p.next c = none := by
    rcases hc with rfl | rfl <;> cases p <;> rfl
  have hstep : (⟨.number p raw, st⟩ : State).step c =
      ((⟨.value, st⟩ : State).put (.number raw)).stepAfter c := by
    simp only [step, stepNumber, hnext, hp, if_true]
    rfl
  rw [run, run, hstep, step_put]

theorem run_literal {ds : List Char} (hds : ds ≠ []) (v : Value) (st : List Frame) :
    (⟨.literal ds v, st⟩ : State).run ds = some ((⟨.value, st⟩ : State).put v) := by
  induction ds with
  | nil => exact absurd rfl hds
  | cons d ds ih =>
    have hstep : (⟨.literal (d :: ds) v, st⟩ : State).step d =
        some (if ds.isEmpty then (⟨.value, st⟩ : State).put v else ⟨.literal ds v, st⟩) :=
      if_pos rfl
    rw [run_cons hstep]
    cases ds with
    | nil => rfl
    | cons e ds => exact ih (List.cons_ne_nil e ds)

/-- `true`, `false` and `null`. -/
theorem run_word {c : Char} {ds : List Char} {v : Value} {st : List Frame}
    (hstep : (⟨.value, st⟩ : State).step c = some ⟨.literal ds v, st⟩) (hds : ds ≠ [])
    (rest : List Char) :
    (⟨.value, st⟩ : State).run (c :: (ds ++ rest)) =
      ((⟨.value, st⟩ : State).put v).run rest := by
  rw [run_cons hstep, run_append, run_literal hds, Option.bind_some]

/-- A value starts with a character of its own. -/
theorem render_head (depth : ℕ) {v : Value} (hv : v.Valid) :
    ∃ c cs, render depth v = c :: cs ∧ c ≠ ']' ∧ space c = false := by
  cases v with
  | null => exact ⟨'n', _, rfl, by decide, rfl⟩
  | bool b =>
    cases b with
    | false => exact ⟨'f', _, rfl, by decide, rfl⟩
    | true => exact ⟨'t', _, rfl, by decide, rfl⟩
  | number raw =>
    cases raw with
    | nil => cases hv
    | cons c cs =>
      refine ⟨c, cs, rfl, ?_, ?_⟩
      · rintro rfl
        cases hv
      · rw [Bool.eq_false_iff]
        intro hs
        simp only [space, Bool.or_eq_true, decide_eq_true_eq] at hs
        obtain ((rfl | rfl) | rfl) | rfl := hs <;> cases hv
  | string raw => exact ⟨'"', _, rfl, by decide, rfl⟩
  | array vs =>
    cases vs with
    | nil => exact ⟨'[', _, rfl, by decide, rfl⟩
    | cons v vs => exact ⟨'[', _, rfl, by decide, rfl⟩
  | object ms =>
    cases ms with
    | nil => exact ⟨'{', _, rfl, by decide, rfl⟩
    | cons m ms => exact ⟨'{', _, rfl, by decide, rfl⟩

/-- The first item of an array is read as any other. -/
theorem run_firstItem (depth : ℕ) {v : Value} (hv : v.Valid) (st : List Frame)
    (rest : List Char) :
    (⟨.first, .array [] :: st⟩ : State).run (render depth v ++ rest) =
      (⟨.value, .array [] :: st⟩ : State).run (render depth v ++ rest) := by
  obtain ⟨c, cs, hc, hclose, hspace⟩ := render_head depth hv
  have hstep : (⟨.first, .array [] :: st⟩ : State).step c =
      (⟨.value, .array [] :: st⟩ : State).step c := by
    simp only [step, stepFirst]
    rw [if_neg hclose, stepValue, stepValue, hspace]
    rfl
  rw [hc, List.cons_append, run, run, hstep]

/-- A key, with its colon. -/
theorem run_member {k : List Char} (hk : stringOk k = true) {m : Mode}
    {done : List (List Char × Value)} {st : List Frame}
    (hm : (⟨m, .object done [] :: st⟩ : State).step '"' =
      some ⟨.string true .plain [], .object done [] :: st⟩) (rest : List Char) :
    (⟨m, .object done [] :: st⟩ : State).run ('"' :: (k ++ ('"' :: ':' :: ' ' :: rest))) =
      (⟨.value, .object done k :: st⟩ : State).run rest := by
  rw [run_quoted hk m _ true hm]
  rfl

mutual

/-- **Values** are read as they were. -/
theorem run_render (v : Value) (hv : v.Valid) (depth : ℕ) (st : List Frame) (rest : List Char)
    (hrest : (∃ raw, v = .number raw) → Delimited rest) :
    (⟨.value, st⟩ : State).run (render depth v ++ rest) =
      ((⟨.value, st⟩ : State).put v).run rest := by
  match v with
  | .null => exact run_word rfl (by decide) rest
  | .bool true => exact run_word rfl (by decide) rest
  | .bool false => exact run_word rfl (by decide) rest
  | .number [] => cases hv
  | .number (c :: cs) =>
    -- a number does not end by itself: the character after it ends it
    obtain ⟨q, hq, hfinal⟩ := (Option.any_eq_true _ _).mp hv
    obtain ⟨p, hp, hrun⟩ := Option.bind_eq_some_iff.mp hq
    rw [render, List.cons_append, run_cons (step_number hp st), run_append, run_number hrun,
      Option.bind_some, run_delimited hfinal _ _ (hrest ⟨_, rfl⟩)]
    rfl
  | .string raw =>
    rw [render, List.cons_append, List.append_assoc]
    exact run_quoted hv .value st false rfl rest
  | .array [] => rfl
  | .array (v :: vs) =>
    obtain ⟨hv, hvs⟩ := hv
    have htail := delimited_newline depth (']' :: rest)
    have hclose : (⟨.after, .array (v :: vs) :: st⟩ : State).step ']' =
        some ((⟨.after, st⟩ : State).put (.array (v :: vs))) := rfl
    have hopen : (⟨.value, st⟩ : State).step '[' = some ⟨.first, .array [] :: st⟩ := rfl
    rw [render, List.cons_append, run_cons hopen]
    simp only [List.append_assoc, List.cons_append, List.nil_append]
    rw [run_newline (idle_first _ _), run_firstItem _ hv,
      run_render v hv _ _ _ fun _ => delimited_renderItems _ _ htail]
    refine (run_renderItems vs hvs _ [v] st _ htail).trans ?_
    rw [run_newline (idle_after _)]
    exact run_cons hclose rest
  | .object [] => rfl
  | .object ((k, v) :: ms) =>
    obtain ⟨hk, hv, hms⟩ := hv
    have htail := delimited_newline depth ('}' :: rest)
    have hclose : (⟨.after, .object ((k, v) :: ms) [] :: st⟩ : State).step '}' =
        some ((⟨.after, st⟩ : State).put (.object ((k, v) :: ms))) := rfl
    have hopen : (⟨.value, st⟩ : State).step '{' = some ⟨.first, .object [] [] :: st⟩ := rfl
    rw [render, List.cons_append, run_cons hopen]
    simp only [List.append_assoc, List.cons_append, List.nil_append]
    rw [run_newline (idle_first _ _), run_member hk rfl,
      run_render v hv _ _ _ fun _ => delimited_renderMembers _ _ htail]
    refine (run_renderMembers ms hms _ [(k, v)] st _ htail).trans ?_
    rw [run_newline (idle_after _)]
    exact run_cons hclose rest

theorem run_renderItems (vs : List Value) (hvs : validItems vs) (depth : ℕ) (done : List Value)
    (st : List Frame) (rest : List Char) (hrest : Delimited rest) :
    (⟨.after, .array done :: st⟩ : State).run (renderItems depth vs ++ rest) =
      (⟨.after, .array (done ++ vs) :: st⟩ : State).run rest := by
  match vs with
  | [] => rw [List.append_nil]; rfl
  | v :: vs =>
    obtain ⟨hv, hvs⟩ := hvs
    have hcomma : (⟨.after, .array done :: st⟩ : State).step ',' =
        some ⟨.value, .array done :: st⟩ := rfl
    rw [renderItems, List.cons_append, run_cons hcomma]
    simp only [List.append_assoc]
    rw [run_newline (idle_value _),
      run_render v hv _ _ _ fun _ => delimited_renderItems _ _ hrest]
    refine (run_renderItems vs hvs _ (done ++ [v]) st _ hrest).trans ?_
    rw [List.append_assoc]
    rfl

theorem run_renderMembers (ms : List (List Char × Value)) (hms : validMembers ms) (depth : ℕ)
    (done : List (List Char × Value)) (st : List Frame) (rest : List Char)
    (hrest : Delimited rest) :
    (⟨.after, .object done [] :: st⟩ : State).run (renderMembers depth ms ++ rest) =
      (⟨.after, .object (done ++ ms) [] :: st⟩ : State).run rest := by
  match ms with
  | [] => rw [List.append_nil]; rfl
  | (k, v) :: ms =>
    obtain ⟨hk, hv, hms⟩ := hms
    have hcomma : (⟨.after, .object done [] :: st⟩ : State).step ',' =
        some ⟨.key, .object done [] :: st⟩ := rfl
    rw [renderMembers, List.cons_append, run_cons hcomma]
    simp only [List.append_assoc, List.cons_append]
    rw [run_newline (idle_key _), run_member hk rfl,
      run_render v hv _ _ _ fun _ => delimited_renderMembers _ _ hrest]
    refine (run_renderMembers ms hms _ (done ++ [(k, v)]) st _ hrest).trans ?_
    rw [List.append_assoc]
    rfl

end

end State

/-- **Round trip** for containers. -/
theorem read_render {v : Value} (hv : v.Valid) (hcontainer : ∀ raw, v ≠ .number raw) (depth : ℕ) :
    read (render depth v) = some v := by
  have hrun := State.run_render v hv depth [] [] fun ⟨raw, h⟩ => absurd h (hcontainer raw)
  rw [List.append_nil] at hrun
  rw [read, State.start, hrun]
  rfl

/-! ## Strings -/

theorem Esc.run_append (e : Esc) (as bs : List Char) :
    e.run (as ++ bs) = (e.run as).bind fun f => f.run bs := by
  induction as generalizing e with
  | nil => rfl
  | cons c as ih =>
    rw [List.cons_append, Esc.run, Esc.run, Option.bind_assoc]
    congr 1
    funext f
    exact ih f

theorem hexVal_hexDigit : ∀ n < 16, hexVal (hexDigit n) = some n := by decide

/-- An escaped character is read back. -/
theorem hex_round {n : ℕ} (h : n < 0x80) :
    Esc.plain.run ['\\', 'u', '0', '0', hexDigit (n / 16), hexDigit (n % 16)] = some .plain ∧
    ∀ cs, units .plain ('\\' :: 'u' :: '0' :: '0' :: hexDigit (n / 16) :: hexDigit (n % 16) :: cs) =
      .inl (Char.ofNat n) :: units .plain cs := by
  have hhigh := hexVal_hexDigit (n / 16) (by omega)
  have hlow := hexVal_hexDigit (n % 16) (by omega)
  have hzero : hexVal '0' = some 0 := rfl
  have hn : n / 16 * 16 + n % 16 = n := by omega
  refine ⟨?_, fun cs => ?_⟩
  · simp [Esc.run, Esc.next, hzero, hhigh, hlow]
  · have hsmall : ¬ 0xD800 ≤ n := by omega
    simp [units, hzero, hhigh, hlow, hn, hsmall]

/-- What is written for a character stands for it. -/
theorem quoteChar_spec (c : Char) :
    Esc.plain.run (quoteChar c) = some .plain ∧
      ∀ cs, units .plain (quoteChar c ++ cs) = .inl c :: units .plain cs := by
  rw [quoteChar]
  split
  · rename_i h
    simp only [Bool.or_eq_true, decide_eq_true_eq] at h
    obtain rfl | rfl := h
    · exact ⟨rfl, fun _ => rfl⟩
    · exact ⟨rfl, fun _ => rfl⟩
  rename_i hplain
  split
  · rename_i h
    subst h
    exact ⟨rfl, fun _ => rfl⟩
  split
  · rename_i h
    subst h
    exact ⟨rfl, fun _ => rfl⟩
  split
  · rename_i h
    subst h
    exact ⟨rfl, fun _ => rfl⟩
  split
  · rename_i h
    subst h
    exact ⟨rfl, fun _ => rfl⟩
  split
  · rename_i h
    subst h
    exact ⟨rfl, fun _ => rfl⟩
  split
  · rename_i h
    have hlt : c.toNat < 0x80 := by
      simp only [Bool.or_eq_true, decide_eq_true_eq] at h
      obtain ((h | rfl) | rfl) | rfl := h
      · omega
      · decide
      · decide
      · decide
    obtain ⟨hrun, hunits⟩ := hex_round hlt
    refine ⟨hrun, fun cs => (hunits cs).trans ?_⟩
    rw [Char.ofNat_toNat]
  rename_i hsafe
  split
  · rename_i h
    subst h
    exact ⟨rfl, fun _ => rfl⟩
  split
  · rename_i h
    subst h
    exact ⟨rfl, fun _ => rfl⟩
  · simp only [Bool.or_eq_true, decide_eq_true_eq, not_or] at hplain hsafe
    obtain ⟨hquote, hslash⟩ := hplain
    refine ⟨?_, fun cs => ?_⟩
    · simp [Esc.run, Esc.next, hquote, hslash, hsafe.1.1.1]
    · rw [List.singleton_append, units, if_neg hslash]

theorem join_map_inl (cs : List Char) : join (cs.map Sum.inl) = cs := by
  induction cs with
  | nil => rfl
  | cons c cs ih => rw [List.map_cons, join, ih]

/-- What is written for a string can stand between quotes. -/
theorem stringOk_quote (s : String) : stringOk (quote s) = true := by
  have hrun : ∀ cs : List Char, Esc.plain.run (cs.flatMap quoteChar) = some .plain := by
    intro cs
    induction cs with
    | nil => rfl
    | cons c cs ih =>
      rw [List.flatMap_cons, Esc.run_append, (quoteChar_spec c).1, Option.bind_some, ih]
  exact decide_eq_true (hrun s.toList)

/-- **Round trip** for strings. -/
theorem unquote_quote (s : String) : unquote (quote s) = s := by
  have hunits : ∀ cs : List Char, units .plain (cs.flatMap quoteChar) = cs.map Sum.inl := by
    intro cs
    induction cs with
    | nil => rfl
    | cons c cs ih => rw [List.flatMap_cons, (quoteChar_spec c).2, ih, List.map_cons]
  rw [unquote, quote, hunits, join_map_inl, String.ofList_toList]

/-- Text without quotes, backslashes and control characters is written as it is. -/
theorem stringOk_of_plain {raw : List Char}
    (h : ∀ c ∈ raw, c ≠ '"' ∧ c ≠ '\\' ∧ 0x20 ≤ c.toNat) : stringOk raw = true := by
  refine decide_eq_true ?_
  induction raw with
  | nil => rfl
  | cons c cs ih =>
    obtain ⟨⟨hquote, hslash, hlow⟩, hcs⟩ := List.forall_mem_cons.mp h
    have hnext : Esc.plain.next c = some .plain := by
      simp [Esc.next, hquote, hslash, Nat.not_lt.mpr hlow]
    rw [Esc.run, hnext, Option.bind_some, ih hcs]

/-! ## Integers -/

/-- The digits of a numeral. -/
theorem isDigit_of_mem_toDigits {n : ℕ} {c : Char} (h : c ∈ Nat.toDigits 10 n) :
    c.isDigit = true :=
  Nat.isDigit_of_mem_toDigits (by decide) (by decide) h

/-- A positive number does not start with a zero. -/
theorem toDigits_head (n : ℕ) (hn : 0 < n) :
    ∃ c cs, Nat.toDigits 10 n = c :: cs ∧ c ≠ '0' := by
  induction n using Nat.strongRecOn with
  | ind n ih =>
    by_cases hlt : n < 10
    · refine ⟨n.digitChar, [], Nat.toDigits_of_lt_base hlt, ?_⟩
      exact mt Nat.digitChar_eq_zero.mp (Nat.ne_of_gt hn)
    · obtain ⟨c, cs, hcs, hc⟩ := ih (n / 10) (by omega) (by omega)
      refine ⟨c, cs ++ [(n % 10).digitChar], ?_, hc⟩
      rw [Nat.toDigits_of_base_le (by decide) (by omega), hcs]
      rfl

theorem run_digits {cs : List Char} (h : ∀ c ∈ cs, c.isDigit = true) :
    Part.int.run cs = some .int := by
  induction cs with
  | nil => rfl
  | cons c cs ih =>
    obtain ⟨hc, hcs⟩ := List.forall_mem_cons.mp h
    rw [Part.run, Part.next, if_pos hc, Option.bind_some, ih hcs]

/-- The digits of a number, after a minus or at the start. -/
theorem run_toDigits (n : ℕ) : ∃ c cs p q, Nat.toDigits 10 n = c :: cs ∧
    Part.first c = some p ∧ Part.minus.next c = some p ∧ p.run cs = some q ∧ q.final = true := by
  rcases Nat.eq_zero_or_pos n with rfl | hn
  · exact ⟨'0', [], .zero, .zero, Nat.toDigits_zero 10, rfl, rfl, rfl, rfl⟩
  · obtain ⟨c, cs, hcs, hc⟩ := toDigits_head n hn
    have hall : ∀ d ∈ c :: cs, d.isDigit = true := fun d hd =>
      isDigit_of_mem_toDigits (by rw [hcs]; exact hd)
    obtain ⟨hdigit, hrest⟩ := List.forall_mem_cons.mp hall
    have hminus : c ≠ '-' := by
      rintro rfl
      cases hdigit
    refine ⟨c, cs, .int, .int, hcs, ?_, ?_, run_digits hrest, rfl⟩
    · rw [Part.first, if_neg hminus, if_neg hc, if_pos hdigit]
    · rw [Part.next, if_neg hc, if_pos hdigit]

theorem numberOk_intText (n : ℤ) : numberOk (intText n) = true := by
  cases n with
  | ofNat n =>
    obtain ⟨c, cs, p, q, hcs, hfirst, -, hrun, hfinal⟩ := run_toDigits n
    rw [intText, hcs, numberOk, hfirst, Option.bind_some, hrun, Option.any_some, hfinal]
  | negSucc n =>
    obtain ⟨c, cs, p, q, hcs, -, hnext, hrun, hfinal⟩ := run_toDigits (n + 1)
    have hfirst : Part.first '-' = some .minus := rfl
    rw [intText, hcs, numberOk, hfirst, Option.bind_some, Part.run, hnext, Option.bind_some, hrun,
      Option.any_some, hfinal]

/-- **Round trip** for integers. -/
theorem readInt_intText (n : ℤ) : readInt (intText n) = some n := by
  have hdigits : ∀ n, Nat.toDigits 10 n ≠ [] ∧ (Nat.toDigits 10 n).all Char.isDigit = true :=
    fun n => ⟨Nat.toDigits_ne_nil, List.all_eq_true.mpr fun _ hc => isDigit_of_mem_toDigits hc⟩
  cases n with
  | ofNat n =>
    rw [intText, readInt.eq_def]
    split
    · rename_i cs hcs
      have hminus : ('-').isDigit = true :=
        isDigit_of_mem_toDigits (by rw [hcs]; exact List.mem_cons_self)
      cases hminus
    · rw [if_pos (hdigits n), Nat.ofDigitChars_ten_toDigits]
      rfl
  | negSucc n =>
    rw [intText, readInt, if_pos (hdigits (n + 1)), Nat.ofDigitChars_ten_toDigits]
    rfl

/-! ## Unfinished texts -/

namespace State

variable {s s' : State} {c : Char}

/-- In a container. -/
def Inside (s : State) : Prop := s.stack ≠ [] ∧ ∀ v, s.mode ≠ .done v

/-- After the value of the text. -/
def Ended (s : State) : Prop := ∃ v, s = ⟨.done v, []⟩

theorem Inside.put (h : s.Inside) (v : Value) : (s.put v).Inside := by
  rw [State.put]
  split
  · rename_i hs
    exact absurd hs h.1
  · exact ⟨List.cons_ne_nil _ _, fun _ h => by cases h⟩
  · exact ⟨List.cons_ne_nil _ _, fun _ h => by cases h⟩

theorem Inside.goto (h : s.Inside) {m : Mode} (hm : ∀ v, m ≠ .done v) : (s.goto m).Inside :=
  ⟨h.1, hm⟩

/-- A container ends: the one around it goes on, or the text has ended. -/
theorem put_cases (st : List Frame) (v : Value) :
    ((⟨.after, st⟩ : State).put v).Inside ∨ ((⟨.after, st⟩ : State).put v).Ended := by
  cases st with
  | nil => exact .inr ⟨v, rfl⟩
  | cons f st => exact .inl (Inside.put ⟨List.cons_ne_nil _ _, fun _ h => by cases h⟩ v)

/-- What a character does in a container: only a closing bracket can end the text. -/
def Stays (c : Char) (s' : State) : Prop := s'.Inside ∨ s'.Ended ∧ (c = ']' ∨ c = '}')

theorem stays_close {st : List Frame} {v : Value} (hc : c = ']' ∨ c = '}') :
    Stays c ((⟨.after, st⟩ : State).put v) :=
  (put_cases st v).imp id fun h => ⟨h, hc⟩

theorem stays_stepValue (hs : s.Inside) (h : s.stepValue c = some s') : Stays c s' := by
  have hpush : ∀ f : Frame, Inside ⟨.first, f :: s.stack⟩ := fun f =>
    ⟨List.cons_ne_nil _ _, fun _ h => by cases h⟩
  refine .inl ?_
  rw [stepValue] at h
  split at h
  · cases h
    exact hs
  split at h
  · cases h
    exact hs.goto fun _ h => by cases h
  split at h
  · cases h
    exact hpush _
  split at h
  · cases h
    exact hpush _
  split at h
  · cases h
    exact hs.goto fun _ h => by cases h
  split at h
  · cases h
    exact hs.goto fun _ h => by cases h
  split at h
  · cases h
    exact hs.goto fun _ h => by cases h
  · obtain ⟨p, -, rfl⟩ := Option.map_eq_some_iff.mp h
    exact hs.goto fun _ h => by cases h

theorem stays_stepKey (hs : s.Inside) (h : s.stepKey c = some s') : Stays c s' := by
  refine .inl ?_
  rw [stepKey] at h
  split at h
  · cases h
    exact hs
  · split at h <;> cases h
    exact hs.goto fun _ h => by cases h

theorem stays_stepFirst (hs : s.Inside) (h : s.stepFirst c = some s') : Stays c s' := by
  rw [stepFirst] at h
  split at h
  · cases h
  · split at h
    · cases h
      exact stays_close (.inl ‹_›)
    · exact stays_stepValue hs h
  · split at h
    · cases h
      exact stays_close (.inr ‹_›)
    · exact stays_stepKey hs h

theorem stays_stepAfter (hs : s.Inside) (h : s.stepAfter c = some s') : Stays c s' := by
  rw [stepAfter] at h
  split at h
  · cases h
    exact .inl hs
  split at h
  · cases h
  · split at h
    · cases h
      exact .inl (hs.goto fun _ h => by cases h)
    · split at h <;> cases h
      exact stays_close (.inl ‹_›)
  · split at h
    · cases h
      exact .inl (hs.goto fun _ h => by cases h)
    · split at h <;> cases h
      exact stays_close (.inr ‹_›)

theorem stays_stepString (hs : s.Inside) {isKey : Bool} {e : Esc} {raw : List Char}
    (h : s.stepString isKey e raw c = some s') : Stays c s' := by
  refine .inl ?_
  rw [stepString] at h
  split at h
  · split at h
    · rw [putKey] at h
      split at h <;> cases h
      exact ⟨List.cons_ne_nil _ _, fun _ h => by cases h⟩
    · cases h
      exact hs.put _
  · obtain ⟨f, -, rfl⟩ := Option.map_eq_some_iff.mp h
    exact hs.goto fun _ h => by cases h

theorem stays_stepNumber (hs : s.Inside) {p : Part} {raw : List Char}
    (h : s.stepNumber p raw c = some s') : Stays c s' := by
  rw [stepNumber] at h
  split at h
  · cases h
    exact .inl (hs.goto fun _ h => by cases h)
  · split at h
    · exact stays_stepAfter (hs.put _) h
    · cases h

theorem stays_stepLiteral (hs : s.Inside) {rest : List Char} {v : Value}
    (h : s.stepLiteral rest v c = some s') : Stays c s' := by
  refine .inl ?_
  rw [stepLiteral.eq_def] at h
  split at h
  · cases h
  · split at h <;> cases h
    split
    · exact hs.put v
    · exact hs.goto fun _ h => by cases h

/-- **One character** in a container. -/
theorem stays_step (hs : s.Inside) (h : s.step c = some s') : Stays c s' := by
  rw [step] at h
  split at h
  case h_1 => exact stays_stepValue hs h
  case h_2 => exact stays_stepFirst hs h
  case h_3 => exact stays_stepKey hs h
  case h_4 =>
    split at h
    · cases h
      exact .inl hs
    · split at h <;> cases h
      exact .inl (hs.goto fun _ h => by cases h)
  case h_5 => exact stays_stepAfter hs h
  case h_6 v hm => exact absurd hm (hs.2 v)
  case h_7 => exact stays_stepString hs h
  case h_8 => exact stays_stepNumber hs h
  case h_9 => exact stays_stepLiteral hs h

theorem step_ended (hs : s.Ended) (h : s.step c = some s') : s' = s ∧ space c = true := by
  obtain ⟨v, rfl⟩ := hs
  simp only [step] at h
  split at h <;> cases h
  exact ⟨rfl, ‹_›⟩

/-- Once the text has ended, there is only white space. -/
theorem run_ended {cs : List Char} (hs : s.Ended) (h : s.run cs = some s') :
    s' = s ∧ ∀ c ∈ cs, space c = true := by
  induction cs generalizing s with
  | nil =>
    cases h
    exact ⟨rfl, fun _ hc => by cases hc⟩
  | cons c cs ih =>
    obtain ⟨t, ht, hrun⟩ := Option.bind_eq_some_iff.mp h
    obtain ⟨rfl, hspace⟩ := step_ended hs ht
    obtain ⟨rfl, hspaces⟩ := ih hs hrun
    exact ⟨rfl, List.forall_mem_cons.mpr ⟨hspace, hspaces⟩⟩

/-- **Some characters** in a container. -/
theorem run_inside {cs : List Char} (hs : s.Inside) (h : s.run cs = some s') :
    s'.Inside ∨ s'.Ended := by
  induction cs generalizing s with
  | nil =>
    cases h
    exact .inl hs
  | cons c cs ih =>
    obtain ⟨t, ht, hrun⟩ := Option.bind_eq_some_iff.mp h
    rcases stays_step hs ht with ht | ⟨ht, -⟩
    · exact ih ht hrun
    · obtain ⟨rfl, -⟩ := run_ended ht hrun
      exact .inr ht

/-- Without closing brackets the container does not end. -/
theorem run_inside_of_ne {cs : List Char} (hcs : ∀ c ∈ cs, c ≠ ']' ∧ c ≠ '}') (hs : s.Inside)
    (h : s.run cs = some s') : s'.Inside := by
  induction cs generalizing s with
  | nil =>
    cases h
    exact hs
  | cons c cs ih =>
    obtain ⟨t, ht, hrun⟩ := Option.bind_eq_some_iff.mp h
    obtain ⟨hc, hcs⟩ := List.forall_mem_cons.mp hcs
    rcases stays_step hs ht with ht | ⟨-, hclose⟩
    · exact ih hcs ht hrun
    · exact absurd hclose (not_or.mpr hc)

theorem accept_inside (hs : s.Inside) : s.accept = none := by
  rw [accept]
  split
  · rename_i v hm
    exact absurd hm (hs.2 v)
  · rw [if_neg]
    simp [hs.1]
  · rfl

end State

/-- The start of a container. -/
def opens (c : Char) : Bool := c = '[' || c = '{'

theorem step_opens {c : Char} (h : opens c = true) :
    ∃ f, State.start.step c = some ⟨.first, [f]⟩ := by
  simp only [opens, Bool.or_eq_true, decide_eq_true_eq] at h
  rcases h with rfl | rfl
  · exact ⟨_, rfl⟩
  · exact ⟨_, rfl⟩

/-- **A container** is not read before its last character is there, whatever follows of
characters that are not closing brackets. -/
theorem read_cut {c last : Char} {p t junk : List Char} (hopens : opens c = true)
    (hlast : space last = false) (hread : (read (c :: (p ++ (t ++ [last])))).isSome = true)
    (hjunk : ∀ c ∈ junk, c ≠ ']' ∧ c ≠ '}') : read (c :: (p ++ junk)) = none := by
  obtain ⟨f, hf⟩ := step_opens hopens
  have hinside : State.Inside ⟨.first, [f]⟩ := ⟨List.cons_ne_nil _ _, fun _ h => by cases h⟩
  rw [read, State.run_cons hf, State.run_append] at hread ⊢
  cases hp : (⟨.first, [f]⟩ : State).run p with
  | none => rfl
  | some s =>
    rw [hp, Option.bind_some] at hread
    rw [Option.bind_some]
    -- the container is either still open after the part, or was closed within it
    rcases State.run_inside hinside hp with hs | hs
    · cases hj : s.run junk with
      | none => rfl
      | some s' => exact State.accept_inside (State.run_inside_of_ne hjunk hs hj)
    · obtain ⟨v, hv⟩ := Option.isSome_iff_exists.mp hread
      obtain ⟨s', hs', -⟩ := Option.bind_eq_some_iff.mp hv
      have hspace := (State.run_ended hs hs').2 last (List.mem_append_right _ List.mem_cons_self)
      cases hlast.symm.trans hspace

/-- An object is written from bracket to bracket. -/
theorem render_object (depth : ℕ) (ms : List (List Char × Value)) :
    ∃ body, render depth (.object ms) = '{' :: (body ++ ['}']) := by
  cases ms with
  | nil => exact ⟨[], rfl⟩
  | cons m ms =>
    refine ⟨newline (depth + 1) ++ ('"' :: (m.1 ++ ('"' :: ':' :: ' ' ::
      (render (depth + 1) m.2 ++ (renderMembers (depth + 1) ms ++ newline depth))))), ?_⟩
    obtain ⟨k, v⟩ := m
    rw [render]
    simp only [List.append_assoc, List.cons_append]

/-- No value starts outside of ASCII. -/
theorem read_high {text : List Char} (h : ∀ c ∈ text, 0x80 ≤ c.toNat) : read text = none := by
  cases text with
  | nil => rfl
  | cons c cs =>
    have hc := h c List.mem_cons_self
    have hne : ∀ d : Char, d.toNat < 0x80 → c ≠ d := by
      rintro d hd rfl
      exact absurd hd (Nat.not_lt.mpr hc)
    have hdigit : c.isDigit = false := by
      rw [Bool.eq_false_iff]
      intro hd
      simp only [Char.isDigit, Bool.and_eq_true, decide_eq_true_eq, UInt32.le_iff_toNat_le] at hd
      have hle : c.toNat ≤ 57 := hd.2
      omega
    have hspace : space c = false := by
      simp only [space, hne ' ' (by decide), hne '\t' (by decide), hne '\r' (by decide),
        hne '\n' (by decide), decide_false]
      rfl
    have hstep : State.start.step c = none := by
      simp only [State.step, State.start, State.stepValue]
      rw [hspace, if_neg (hne '"' (by decide)), if_neg (hne '[' (by decide)),
        if_neg (hne '\x7b' (by decide)), if_neg (hne 't' (by decide)), if_neg (hne 'f' (by decide)),
        if_neg (hne 'n' (by decide)), Part.first, if_neg (hne '-' (by decide)),
        if_neg (hne '0' (by decide)), hdigit]
      rfl
    rw [read, State.run, hstep]
    rfl

end Ultrav.Json

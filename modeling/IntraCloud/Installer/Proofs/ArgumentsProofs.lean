import IntraCloud.Installer.Arguments
import Mathlib.Data.List.TakeWhile
import Mathlib.Tactic.SplitIfs

/-!
# What is quoted is split as it was

The splitter follows the loop of the quoting, which holds the backslashes back until it has seen what comes after
them.
-/

namespace Installer

variable {equalsEmpty : List CodeUnit → Bool}

/-! ## One argument -/

theorem splitFrom_backslashes (current : List CodeUnit) (inQuotes : Bool) (backslashes k : Nat)
    (s : List CodeUnit) :
    splitFrom (some current) inQuotes backslashes (List.replicate k backslash ++ s) =
      splitFrom (some current) inQuotes (backslashes + k) s := by
  induction k generalizing backslashes with
  | zero => rfl
  | succ k ih =>
    rw [List.replicate_succ, List.cons_append]
    have hstep : splitFrom (some current) inQuotes backslashes
        (backslash :: (List.replicate k backslash ++ s)) =
        splitFrom (some current) inQuotes (backslashes + 1) (List.replicate k backslash ++ s) := rfl
    rw [hstep, ih]
    congr 1
    omega

/-- A quote after backslashes. -/
theorem splitFrom_quote (current : List CodeUnit) (inQuotes : Bool) (backslashes : Nat) (s : List CodeUnit) :
    splitFrom (some current) inQuotes backslashes (quote :: s) =
      if backslashes % 2 = 0 then
        splitFrom (some (current ++ List.replicate (backslashes / 2) backslash)) (!inQuotes) 0 s
      else
        splitFrom (some (current ++ List.replicate (backslashes / 2) backslash ++ [quote])) inQuotes 0 s := rfl

/-- Any other character that ends no argument. -/
theorem splitFrom_plain (current : Option (List CodeUnit)) {inQuotes : Bool} (backslashes : Nat) {c : CodeUnit}
    (s : List CodeUnit) (hbackslash : c ≠ backslash) (hquote : c ≠ quote)
    (hinside : inQuotes = true ∨ c ≠ space ∧ c ≠ tab) :
    splitFrom current inQuotes backslashes (c :: s) =
      splitFrom (some (current.getD [] ++ List.replicate backslashes backslash ++ [c])) inQuotes 0 s := by
  have hends : ¬ ((c = space ∨ c = tab) ∧ inQuotes = false) := by
    rintro ⟨hc, hopen⟩
    rcases hinside with hinside | ⟨hspace, htab⟩
    · rw [hopen] at hinside
      cases hinside
    · exact hc.elim hspace htab
  rw [splitFrom, if_neg hbackslash, if_neg hquote, if_neg hends]

/-- Between quotes the splitter reads what the loop was given. -/
theorem splitFrom_quoteFrom (n : Nat) (s current rest : List CodeUnit) :
    splitFrom (some current) true 0 (quoteFrom n s ++ rest) =
      splitFrom (some (current ++ List.replicate n backslash ++ s)) false 0 rest := by
  induction s generalizing n current with
  | nil =>
    have heven : n * 2 % 2 = 0 := by omega
    have hhalf : n * 2 / 2 = n := by omega
    rw [quoteFrom, List.append_assoc, splitFrom_backslashes, List.singleton_append, splitFrom_quote, Nat.zero_add,
      if_pos heven, hhalf, List.append_nil]
    rfl
  | cons c s ih =>
    rw [quoteFrom]
    by_cases hbackslash : c = backslash
    · rw [if_pos hbackslash, ih, hbackslash, List.replicate_succ']
      simp only [List.append_assoc, List.singleton_append]
    · rw [if_neg hbackslash]
      by_cases hquote : c = quote
      · have hodd : ¬ (n * 2 + 1) % 2 = 0 := by omega
        have hhalf : (n * 2 + 1) / 2 = n := by omega
        rw [if_pos hquote, List.append_assoc, splitFrom_backslashes, List.cons_append, splitFrom_quote,
          Nat.zero_add, if_neg hodd, hhalf, ih, hquote]
        simp only [List.append_assoc, List.singleton_append, List.replicate_zero]
      · rw [if_neg hquote, List.append_assoc, splitFrom_backslashes, List.cons_append,
          splitFrom_plain _ _ _ hbackslash hquote (Or.inl rfl), ih, Option.getD_some]
        simp only [Nat.zero_add, List.append_assoc, List.singleton_append, List.replicate_zero]

/-- What may follow an argument. -/
def Ends (rest : List CodeUnit) : Prop := rest = [] ∨ ∃ s, rest = space :: s

/-- The arguments after that. -/
theorem splitFrom_ends {current : List CodeUnit} {backslashes : Nat} {rest : List CodeUnit} (h : Ends rest) :
    splitFrom (some current) false backslashes rest =
      (current ++ List.replicate backslashes backslash) :: splitFrom none false 0 rest := by
  rcases h with rfl | ⟨s, rfl⟩
  · rfl
  · have hspace : ∀ current backslashes, splitFrom current false backslashes (space :: s) =
        (current.map (· ++ List.replicate backslashes backslash)).toList ++ splitFrom none false 0 s :=
      fun _ _ => rfl
    rw [hspace, hspace none]
    rfl

/-- An argument without quotes around it. -/
theorem splitFrom_unquoted {s rest : List CodeUnit} (current : Option (List CodeUnit)) (backslashes : Nat)
    (hs : ∀ c ∈ s, c ≠ quote ∧ c ≠ space ∧ c ≠ tab) (hsome : current.isSome = true ∨ s ≠ []) (h : Ends rest) :
    splitFrom current false backslashes (s ++ rest) =
      (current.getD [] ++ List.replicate backslashes backslash ++ s) :: splitFrom none false 0 rest := by
  induction s generalizing current backslashes with
  | nil =>
    obtain ⟨read, rfl⟩ := Option.isSome_iff_exists.mp (hsome.resolve_right fun hne => hne rfl)
    rw [List.nil_append, splitFrom_ends h, List.append_nil, Option.getD_some]
  | cons c s ih =>
    obtain ⟨hquote, hinside⟩ := hs c (List.mem_cons_self ..)
    have hrest := fun d hd => hs d (List.mem_cons_of_mem _ hd)
    rw [List.cons_append]
    by_cases hbackslash : c = backslash
    · have hstep : splitFrom current false backslashes (backslash :: (s ++ rest)) =
          splitFrom (some (current.getD [])) false (backslashes + 1) (s ++ rest) := rfl
      rw [hbackslash, hstep, ih _ _ hrest (Or.inl rfl), Option.getD_some, List.replicate_succ']
      simp only [List.append_assoc, List.singleton_append]
    · rw [splitFrom_plain _ _ _ hbackslash hquote (Or.inr hinside), ih _ _ hrest (Or.inl rfl), Option.getD_some]
      simp only [List.append_assoc, List.singleton_append, List.replicate_zero]

theorem isWhiteSpace_space : isWhiteSpace space = true := rfl

theorem isWhiteSpace_tab : isWhiteSpace tab = true := rfl

/-- An argument that the code takes for empty is read as an empty one, and any other one as it was. -/
theorem splitFrom_converted (hempty : equalsEmpty [] = true) (argument : List CodeUnit) {rest : List CodeUnit}
    (h : Ends rest) :
    splitFrom none false 0 (convertToWindowsQuotedArgument equalsEmpty argument ++ rest) =
      (if equalsEmpty argument then [] else argument) :: splitFrom none false 0 rest := by
  unfold convertToWindowsQuotedArgument
  by_cases hequals : equalsEmpty argument = true
  · rw [if_pos hequals, if_pos hequals]
    have hstep : splitFrom none false 0 ([quote, quote] ++ rest) = splitFrom (some []) false 0 rest := rfl
    rw [hstep, splitFrom_ends h]
    rfl
  · rw [if_neg hequals, if_neg hequals]
    by_cases hplain : (!argument.any fun c => isWhiteSpace c || c == quote) = true
    · rw [if_pos hplain]
      have hchars : ∀ c ∈ argument, c ≠ quote ∧ c ≠ space ∧ c ≠ tab := by
        intro c hc
        have hnot := List.any_eq_false.mp (Bool.not_eq_true' _ ▸ hplain) c hc
        rw [Bool.or_eq_true, not_or, beq_iff_eq] at hnot
        refine ⟨hnot.2, ?_, ?_⟩
        · rintro rfl
          exact hnot.1 isWhiteSpace_space
        · rintro rfl
          exact hnot.1 isWhiteSpace_tab
      have hne : argument ≠ [] := by
        rintro rfl
        exact hequals hempty
      rw [splitFrom_unquoted none 0 hchars (Or.inr hne) h]
      rfl
    · rw [if_neg hplain]
      have hopen : splitFrom none false 0 (quote :: quoteFrom 0 argument ++ rest) =
          splitFrom (some []) true 0 (quoteFrom 0 argument ++ rest) := rfl
      rw [hopen, splitFrom_quoteFrom, splitFrom_ends h]
      simp only [List.replicate_zero, List.nil_append, List.append_nil]

/-! ## All arguments -/

theorem splitFrom_space (s : List CodeUnit) : splitFrom none false 0 (space :: s) = splitFrom none false 0 s := rfl

theorem argumentsString_cons_cons (argument next : List CodeUnit) (arguments : List (List CodeUnit)) :
    argumentsString equalsEmpty (argument :: next :: arguments) =
      convertToWindowsQuotedArgument equalsEmpty argument ++
        space :: argumentsString equalsEmpty (next :: arguments) := by
  unfold argumentsString
  rw [List.map_cons, List.map_cons, List.intercalate_cons_cons, List.append_assoc, List.singleton_append]

theorem argumentsString_singleton (argument : List CodeUnit) :
    argumentsString equalsEmpty [argument] = convertToWindowsQuotedArgument equalsEmpty argument := by
  rw [argumentsString, List.map_singleton, List.intercalate_singleton]

theorem splitFrom_argumentsString (hempty : equalsEmpty [] = true) (arguments : List (List CodeUnit)) :
    splitFrom none false 0 (argumentsString equalsEmpty arguments) =
      arguments.map fun argument => if equalsEmpty argument then [] else argument := by
  induction arguments with
  | nil => rfl
  | cons argument arguments ih =>
    cases arguments with
    | nil =>
      have hone := splitFrom_converted hempty argument (Or.inl rfl : Ends [])
      rw [List.append_nil] at hone
      rw [argumentsString_singleton, hone]
      rfl
    | cons next arguments =>
      rw [argumentsString_cons_cons, splitFrom_converted hempty argument (Or.inr ⟨_, rfl⟩), splitFrom_space, ih]
      rfl

/-! ## NUL -/

theorem not_mem_quoteFrom {n : Nat} {s : List CodeUnit} (h : 0 ∉ s) : 0 ∉ quoteFrom n s := by
  have hbackslashes : ∀ k, 0 ∉ List.replicate k backslash := fun k hmem => by
    cases (List.mem_replicate.mp hmem).2
  induction s generalizing n with
  | nil =>
    intro hmem
    rcases List.mem_append.mp hmem with hmem | hmem
    · exact hbackslashes _ hmem
    · cases List.mem_singleton.mp hmem
  | cons c s ih =>
    have hc : 0 ≠ c := fun heq => h (heq ▸ List.mem_cons_self ..)
    have hs : 0 ∉ s := fun hmem => h (List.mem_cons_of_mem _ hmem)
    rw [quoteFrom]
    split_ifs
    · exact ih hs
    · intro hmem
      rcases List.mem_append.mp hmem with hmem | hmem
      · exact hbackslashes _ hmem
      · rcases List.mem_cons.mp hmem with hquote | hmem
        · cases hquote
        · exact ih hs hmem
    · intro hmem
      rcases List.mem_append.mp hmem with hmem | hmem
      · exact hbackslashes _ hmem
      · exact (List.mem_cons.mp hmem).elim hc (ih hs)

theorem not_mem_converted {argument : List CodeUnit} (h : 0 ∉ argument) :
    0 ∉ convertToWindowsQuotedArgument equalsEmpty argument := by
  unfold convertToWindowsQuotedArgument
  split_ifs
  · decide
  · exact h
  · intro hmem
    rcases List.mem_cons.mp hmem with hquote | hmem
    · cases hquote
    · exact not_mem_quoteFrom h hmem

theorem not_mem_argumentsString {arguments : List (List CodeUnit)} (h : ∀ argument ∈ arguments, 0 ∉ argument) :
    0 ∉ argumentsString equalsEmpty arguments := by
  induction arguments with
  | nil => exact List.not_mem_nil
  | cons argument arguments ih =>
    have hfirst := h argument (List.mem_cons_self ..)
    cases arguments with
    | nil =>
      rw [argumentsString_singleton]
      exact not_mem_converted hfirst
    | cons next arguments =>
      rw [argumentsString_cons_cons]
      intro hmem
      rcases List.mem_append.mp hmem with hmem | hmem
      · exact not_mem_converted hfirst hmem
      · rcases List.mem_cons.mp hmem with hspace | hmem
        · cases hspace
        · exact ih (fun a ha => h a (List.mem_cons_of_mem _ ha)) hmem

theorem takeWhile_of_not_mem {s : List CodeUnit} (h : 0 ∉ s) : s.takeWhile (· ≠ 0) = s := by
  rw [List.takeWhile_eq_self_iff]
  intro c hc
  refine decide_eq_true ?_
  rintro rfl
  exact h hc

/-- Arguments come back as they were if none but the empty one equals the empty string in the comparison. -/
theorem commandLineToArgv_argumentsString_iff (equalsEmpty : List CodeUnit → Bool) (hempty : equalsEmpty [] = true)
    (arguments : List (List CodeUnit)) (hnul : ∀ argument ∈ arguments, 0 ∉ argument) :
    commandLineToArgv (argumentsString equalsEmpty arguments) = arguments ↔
      ∀ argument ∈ arguments, equalsEmpty argument = true → argument = [] := by
  have hsplit : commandLineToArgv (argumentsString equalsEmpty arguments) =
      arguments.map fun argument => if equalsEmpty argument then [] else argument := by
    unfold commandLineToArgv
    rw [takeWhile_of_not_mem (not_mem_argumentsString hnul), splitFrom_argumentsString hempty]
  have hid : (arguments.map fun argument => if equalsEmpty argument then [] else argument) = arguments ↔
      ∀ argument ∈ arguments, (if equalsEmpty argument then [] else argument) = argument := by
    have hmap := List.map_inj_left (l := arguments)
      (f := fun argument => if equalsEmpty argument then [] else argument) (g := id)
    rwa [List.map_id] at hmap
  rw [hsplit, hid]
  refine forall₂_congr fun argument _ => ?_
  by_cases hequals : equalsEmpty argument = true
  · rw [if_pos hequals]
    exact ⟨fun h _ => h.symm, fun h => (h hequals).symm⟩
  · rw [if_neg hequals]
    exact ⟨fun _ h => absurd h hequals, fun _ => rfl⟩

/-- The comparison of strings of soft hyphens and other ASCII characters. -/
def ignoresSoftHyphens (s : List CodeUnit) : Bool := s.all (· == 0xAD)

theorem commandLineToArgv_argumentsString_iff_paths :
    commandLineToArgv (argumentsString ignoresSoftHyphens [[0x61, 0x20, 0x5C], [], [0x22, 0x5C]]) =
        [[0x61, 0x20, 0x5C], [], [0x22, 0x5C]] ↔
      ∀ argument ∈ [[0x61, 0x20, 0x5C], [], [0x22, 0x5C]], ignoresSoftHyphens argument = true → argument = [] :=
  commandLineToArgv_argumentsString_iff ignoresSoftHyphens rfl _ (by decide)

/-- A soft hyphen is quoted as an empty argument. -/
theorem commandLineToArgv_softHyphen :
    commandLineToArgv (argumentsString ignoresSoftHyphens [[0xAD]]) = [[]] ∧
      commandLineToArgv (argumentsString ignoresSoftHyphens [[0xAD]]) ≠ [[0xAD]] := by
  have hlost : commandLineToArgv (argumentsString ignoresSoftHyphens [[0xAD]]) = [[]] := by decide
  refine ⟨hlost, ?_⟩
  rw [hlost]
  decide

end Installer

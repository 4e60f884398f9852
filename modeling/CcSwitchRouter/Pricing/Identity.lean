import CcSwitchRouter.Lib.Bfs
import CcSwitchRouter.Lib.Text
import Mathlib.Data.List.DropRight

namespace CcSwitchRouter.Pricing

/-- Texts as their characters: every cut below falls on a character boundary. -/
abbrev Chars := List Char

section Cuts

def splitOnce (separator value : Chars) : Option (Chars × Chars) := value.dropInfix? separator

def rsplitOnce (separator value : Chars) : Option (Chars × Chars) :=
  (value.reverse.dropInfix? separator.reverse).map fun (after, before) =>
    (before.reverse, after.reverse)

end Cuts

/-- `publishers/anthropic/models/claude-sonnet-4-5` → `claude-sonnet-4-5`. -/
def stripPathLeaf (value : Chars) : Option Chars :=
  let leaf := Text.trimChars (value.rtakeWhile (· != '/'))
  if leaf = [] ∨ leaf = value then none else some leaf

def stems : List Chars :=
  ["claude-".toList, "gpt-".toList, "gemini-".toList, "kimi-".toList, "glm-".toList,
    "deepseek-".toList, "codex-".toList]

/-- Where the first occurrence of each stem, and every `o` with a digit, follows a dot. -/
def stemPositions (value : Chars) : List Nat :=
  (stems.filterMap fun stem => (splitOnce stem value).bind fun (before, _) =>
      if before.getLast? = some '.' then some before.length else none) ++
    (List.range value.length).filter fun i =>
      i ≠ 0 ∧ value[i]? = some 'o' ∧ value[i - 1]? = some '.' ∧ (value[i + 1]?).any Char.isDigit

/-- `global.anthropic.claude-opus-4-8` → `claude-opus-4-8`. -/
def stripProviderDotPrefix (value : Chars) : Option Chars := do
  let stemAt ← (stemPositions value).min?
  let qualifier := value.take (stemAt - 1)
  if qualifier = [] ∨ ¬ (qualifier.splitOn '.').all fun part =>
      part ≠ [] && part.all Char.isAlphanum then
    none
  else some (value.drop stemAt)

/-- `claude-sonnet-4-5-20250929-v1:0` → `claude-sonnet-4-5-20250929`. -/
def stripBedrockRevision (value : Chars) : Option Chars := do
  let next ← value.dropSuffix? ":0".toList
  match rsplitOnce "-v".toList next with
  | some (base, revision) =>
    if base ≠ [] ∧ revision.all Char.isDigit then some base
    else if next ≠ [] then some next else none
  | none => if next ≠ [] then some next else none

/-- The suffixes one after the other; the flag tells whether any was cut. A suffix that is the whole
text ends the round. -/
def stripSuffixes : List Chars → Chars → Bool → Chars × Bool
  | [], current, stripped => (current, stripped)
  | suffix :: rest, current, stripped => match current.dropSuffix? suffix with
    | some next => if next = [] then (current, stripped) else stripSuffixes rest next true
    | none => stripSuffixes rest current stripped

/-- One turn of the loop of `strip_runtime_suffix`. -/
def stripRuntimeRound (value : Chars) : Chars × Bool :=
  let named := stripSuffixes ["-thinking".toList, "-latest".toList] value false
  let sized := stripSuffixes ["[1m]".toList, "-1m".toList] named.1 named.2
  match stripBedrockRevision sized.1 with
  | some next => (next, true)
  | none => sized

section Rounds

variable {value out : Chars}

theorem dropSuffix_append {next suffix : Chars} (h : value.dropSuffix? suffix = some next) :
    value = next ++ suffix := by
  obtain ⟨s, hs, heq⟩ := List.dropSuffix?_eq_some_iff.1 h
  rw [hs, beq_iff_eq.1 heq]

theorem rsplitOnce_append {separator before after : Chars}
    (h : rsplitOnce separator value = some (before, after)) :
    value = before ++ separator ++ after := by
  obtain ⟨⟨a, b⟩, hab, heq⟩ := Option.map_eq_some_iff.1 h
  obtain ⟨rfl, rfl⟩ := Prod.mk.inj heq
  obtain ⟨⟨i, hi, hsep⟩, -⟩ := List.dropInfix?_eq_some_iff.1 hab
  rw [beq_iff_eq.1 hsep] at hi
  rw [← List.reverse_inj, hi]
  simp

structure Cut (out value : Chars) : Prop where
  sublist : out.Sublist value
  shorter : out.length < value.length

theorem Cut.of_ne (h : out.Sublist value) (hne : out ≠ value) : Cut out value :=
  ⟨h, lt_of_le_of_ne h.length_le fun hlen => hne (h.eq_of_length hlen)⟩

theorem Cut.of_append {rest : Chars} (h : rest ≠ []) : Cut out (out ++ rest) where
  sublist := List.sublist_append_left _ _
  shorter := by
    have := List.length_pos_iff.2 h
    rw [List.length_append]
    omega

theorem Cut.trans_sublist {a b c : Chars} (h : Cut a b) (h' : b.Sublist c) : Cut a c :=
  ⟨h.sublist.trans h', h.shorter.trans_le h'.length_le⟩

theorem stripBedrockRevision_cut (h : stripBedrockRevision value = some out) : Cut out value := by
  obtain ⟨next, hnext, h⟩ := Option.bind_eq_some_iff.1 h
  have hcut : Cut next value := by
    rw [dropSuffix_append hnext]
    exact .of_append (by decide)
  cases hsplit : rsplitOnce "-v".toList next with
  | none =>
    simp only [hsplit, Option.ite_none_right_eq_some, Option.some.injEq] at h
    exact h.2 ▸ hcut
  | some p =>
    simp only [hsplit] at h
    split at h
    · obtain rfl : p.1 = out := Option.some.inj h
      refine Cut.trans_sublist ?_ hcut.sublist
      rw [rsplitOnce_append hsplit, List.append_assoc]
      exact .of_append (by simp)
    · simp only [Option.ite_none_right_eq_some, Option.some.injEq] at h
      exact h.2 ▸ hcut

theorem stripSuffixes_cut (suffixes : List Chars) (hne : ∀ s ∈ suffixes, s ≠ [])
    (value : Chars) (stripped : Bool) :
    (stripSuffixes suffixes value stripped).1.Sublist value ∧
      ((stripSuffixes suffixes value stripped).2 = true → stripped = true ∨
        Cut (stripSuffixes suffixes value stripped).1 value) := by
  induction suffixes generalizing value stripped with
  | nil => exact ⟨List.Sublist.refl _, .inl⟩
  | cons suffix rest ih =>
    have hrest := fun s hs => hne s (List.mem_cons_of_mem _ hs)
    rw [stripSuffixes]
    cases hdrop : value.dropSuffix? suffix with
    | none => exact ih hrest value stripped
    | some next =>
      by_cases hnil : next = []
      · simp only [hnil, if_true]
        exact ⟨List.Sublist.refl _, .inl⟩
      · simp only [hnil, if_false]
        have hcut : Cut next value := by
          rw [dropSuffix_append hdrop]
          exact .of_append (hne suffix List.mem_cons_self)
        have hsub := (ih hrest next true).1
        exact ⟨hsub.trans hcut.sublist, fun _ => .inr
          ⟨hsub.trans hcut.sublist, hsub.length_le.trans_lt hcut.shorter⟩⟩

theorem stripRuntimeRound_cut (h : (stripRuntimeRound value).2 = true) :
    Cut (stripRuntimeRound value).1 value := by
  obtain ⟨hsub, hcut⟩ :=
    stripSuffixes_cut ["-thinking".toList, "-latest".toList] (by decide) value false
  obtain ⟨hsub', hcut'⟩ := stripSuffixes_cut ["[1m]".toList, "-1m".toList] (by decide)
    (stripSuffixes ["-thinking".toList, "-latest".toList] value false).1
    (stripSuffixes ["-thinking".toList, "-latest".toList] value false).2
  simp only [stripRuntimeRound] at h ⊢
  split
  · rename_i next hnext
    exact (stripBedrockRevision_cut hnext).trans_sublist (hsub'.trans hsub)
  · rename_i hnone
    rw [hnone] at h
    rcases hcut' h with hnamed | hsized
    · rcases hcut hnamed with hfalse | hnamed
      · cases hfalse
      · exact ⟨hsub'.trans hsub, hsub'.length_le.trans_lt hnamed.shorter⟩
    · exact hsized.trans_sublist hsub

end Rounds

def stripRuntimeLoop (value : Chars) : Chars :=
  if (stripRuntimeRound value).2 = true then stripRuntimeLoop (stripRuntimeRound value).1 else value
termination_by value.length
decreasing_by
  rename_i h
  exact (stripRuntimeRound_cut h).shorter

/-- `-thinking`, `-latest`, `[1m]`, `-1m` and Bedrock's `-v1:0` and `:0`, as often as they come. -/
def stripRuntimeSuffix (value : Chars) : Option Chars :=
  if (stripRuntimeRound value).2 = true then some (stripRuntimeLoop (stripRuntimeRound value).1)
  else none

/-- `claude-sonnet-4-5-20250514` → `claude-sonnet-4-5`. -/
def stripDateStamp (value : Chars) : Option Chars := do
  let (base, stamp) ← rsplitOnce "-".toList value
  if stamp.length = 8 ∧ stamp.all Char.isDigit ∧ base ≠ [] then some base else none

def hyphenated (version : Chars) : Chars := version.map fun c => if c = '.' then '-' else c

/-- `claude-sonnet-4.8` → `claude-sonnet-4-8`. -/
def claudeDotVersionToHyphen (value : Chars) : Option Chars := do
  let rest ← value.dropPrefix? "claude-".toList
  let (family, version) ← splitOnce "-".toList rest
  if ["sonnet".toList, "opus".toList, "haiku".toList].contains family = false then none
  else if '.' ∉ version ∨ ¬ version.all fun c => c.isDigit || c == '.' then none
  else some ("claude-".toList ++ family ++ "-".toList ++ hyphenated version)

def pushUnique (out : List Chars) (next : Option Chars) : List Chars :=
  match next with
  | some next => if out.any (· == next) then out else out ++ [next]
  | none => out

def unwrapChars (value : Chars) : List Chars :=
  [stripPathLeaf value, stripProviderDotPrefix value, stripRuntimeSuffix value,
    stripDateStamp value, claudeDotVersionToHyphen value].foldl pushUnique []

def unwrapIdentity (value : String) : List String := (unwrapChars value.toList).map String.ofList

section Weight

def charsWeight (value : Chars) : Nat := value.length + value.count '.'

variable {out value : Chars}

theorem Cut.weight_lt (h : Cut out value) : charsWeight out < charsWeight value :=
  Nat.add_lt_add_of_lt_of_le h.shorter (h.sublist.count_le _)

theorem stripPathLeaf_cut (h : stripPathLeaf value = some out) : Cut out value := by
  simp only [stripPathLeaf, Option.ite_none_left_eq_some, not_or, Option.some.injEq] at h
  obtain ⟨⟨-, hne⟩, rfl⟩ := h
  refine .of_ne ?_ hne
  have htrim := (List.rdropWhile_prefix Text.isWhitespace _).sublist.trans
    (List.dropWhile_sublist (l := value.rtakeWhile (· != '/')) Text.isWhitespace)
  exact htrim.trans (List.rtakeWhile_suffix _ _).sublist

theorem stemPositions_bounds {i : Nat} (h : i ∈ stemPositions value) :
    0 < i ∧ 0 < value.length := by
  rcases List.mem_append.1 h with h | h
  · obtain ⟨stem, -, h⟩ := List.mem_filterMap.1 h
    obtain ⟨⟨before, after⟩, hsplit, h⟩ := Option.bind_eq_some_iff.1 h
    simp only [Option.ite_none_right_eq_some, Option.some.injEq] at h
    obtain ⟨hlast, rfl⟩ := h
    have hpos : 0 < before.length := List.length_pos_iff.2 fun hnil => by simp [hnil] at hlast
    obtain ⟨⟨i, hi, -⟩, -⟩ := List.dropInfix?_eq_some_iff.1 hsplit
    rw [hi, List.length_append, List.length_append]
    omega
  · simp only [List.mem_filter, List.mem_range, decide_eq_true_eq] at h
    omega

theorem stripProviderDotPrefix_cut (h : stripProviderDotPrefix value = some out) :
    Cut out value := by
  obtain ⟨stemAt, hmin, h⟩ := Option.bind_eq_some_iff.1 h
  simp only [Option.ite_none_left_eq_some, Option.some.injEq] at h
  obtain ⟨-, rfl⟩ := h
  obtain ⟨hpos, hlen⟩ := stemPositions_bounds (List.min?_mem hmin)
  refine ⟨List.drop_sublist _ _, ?_⟩
  rw [List.length_drop]
  omega

theorem stripRuntimeLoop_sublist (value : Chars) : (stripRuntimeLoop value).Sublist value := by
  fun_induction stripRuntimeLoop value with
  | case1 value h ih => exact ih.trans (stripRuntimeRound_cut h).sublist
  | case2 value h => exact List.Sublist.refl _

theorem stripRuntimeSuffix_cut (h : stripRuntimeSuffix value = some out) : Cut out value := by
  simp only [stripRuntimeSuffix, Option.ite_none_right_eq_some, Option.some.injEq] at h
  obtain ⟨hround, rfl⟩ := h
  have hcut := stripRuntimeRound_cut hround
  have hsub := stripRuntimeLoop_sublist (stripRuntimeRound value).1
  exact ⟨hsub.trans hcut.sublist, hsub.length_le.trans_lt hcut.shorter⟩

theorem stripDateStamp_cut (h : stripDateStamp value = some out) : Cut out value := by
  obtain ⟨⟨base, stamp⟩, hsplit, h⟩ := Option.bind_eq_some_iff.1 h
  simp only [Option.ite_none_right_eq_some, Option.some.injEq] at h
  obtain ⟨-, rfl⟩ := h
  rw [rsplitOnce_append hsplit, List.append_assoc]
  exact .of_append (by simp)

theorem count_dot_hyphenated (version : Chars) : (hyphenated version).count '.' = 0 := by
  rw [List.count_eq_zero, hyphenated, List.mem_map]
  rintro ⟨c, -, hc⟩
  split at hc
  · exact absurd hc (by decide)
  · contradiction

theorem claudeDotVersionToHyphen_weight (h : claudeDotVersionToHyphen value = some out) :
    charsWeight out < charsWeight value := by
  obtain ⟨rest, hrest, h⟩ := Option.bind_eq_some_iff.1 h
  obtain ⟨⟨family, version⟩, hsplit, h⟩ := Option.bind_eq_some_iff.1 h
  simp only [Option.ite_none_left_eq_some, not_or, Option.some.injEq] at h
  obtain ⟨-, ⟨hdot, -⟩, rfl⟩ := h
  obtain ⟨p, rfl, hp⟩ := List.dropPrefix?_eq_some_iff.1 hrest
  obtain ⟨⟨i, rfl, hi⟩, -⟩ := List.dropInfix?_eq_some_iff.1 hsplit
  rw [beq_iff_eq.1 hp, beq_iff_eq.1 hi]
  have hcount : 0 < version.count '.' := List.count_pos_iff.2 (not_not.1 hdot)
  have hlen : (hyphenated version).length = version.length := List.length_map _
  simp only [charsWeight, List.length_append, List.count_append, hlen, count_dot_hyphenated]
  omega

theorem mem_pushUnique {out : List Chars} {next : Option Chars} {v : Chars}
    (h : v ∈ pushUnique out next) : v ∈ out ∨ next = some v := by
  cases next with
  | none => exact .inl h
  | some w =>
    simp only [pushUnique] at h
    split at h
    · exact .inl h
    · rcases List.mem_append.1 h with h | h
      · exact .inl h
      · exact .inr (by rw [List.mem_singleton.1 h])

theorem mem_foldl_pushUnique {nexts : List (Option Chars)} {out : List Chars} {v : Chars}
    (h : v ∈ nexts.foldl pushUnique out) : v ∈ out ∨ some v ∈ nexts := by
  induction nexts generalizing out with
  | nil => exact .inl h
  | cons next rest ih =>
    rcases ih h with h | h
    · rcases mem_pushUnique h with h | rfl
      · exact .inl h
      · exact .inr List.mem_cons_self
    · exact .inr (List.mem_cons_of_mem _ h)

theorem unwrapChars_weight (h : out ∈ unwrapChars value) : charsWeight out < charsWeight value := by
  rcases mem_foldl_pushUnique h with h | h
  · cases h
  · simp only [List.mem_cons, List.not_mem_nil, or_false] at h
    rcases h with h | h | h | h | h
    · exact (stripPathLeaf_cut h.symm).weight_lt
    · exact (stripProviderDotPrefix_cut h.symm).weight_lt
    · exact (stripRuntimeSuffix_cut h.symm).weight_lt
    · exact (stripDateStamp_cut h.symm).weight_lt
    · exact claudeDotVersionToHyphen_weight h.symm

def nextIdentities (value : String) : List String := (unwrapIdentity value).filter (· ≠ "")

theorem nextIdentities_descends :
    Bfs.Descends nextIdentities fun value => charsWeight value.toList := by
  intro value next h
  obtain ⟨out, hout, rfl⟩ := List.mem_map.1 (List.mem_filter.1 h).1
  simp only [String.toList_ofList]
  exact unwrapChars_weight hout

end Weight

def identityCandidates (modelText : String) : List String :=
  let first := Text.lower (Text.trim modelText)
  if first = "" then [] else Bfs.visit nextIdentities_descends [first] []

theorem identityCandidates_eq_cons {modelText : String} (h : Text.lower (Text.trim modelText) ≠ "") :
    ∃ rest, identityCandidates modelText = Text.lower (Text.trim modelText) :: rest := by
  simp only [identityCandidates, if_neg h]
  exact Bfs.visit_singleton _

end CcSwitchRouter.Pricing

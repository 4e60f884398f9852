import Mathlib

/-! JSON texts: reading and writing string literals, finding the end of a value, and reading an
object as the list of its members with the values left as texts. -/

namespace Json

def size (t : List Char) : Nat := (t.map Char.utf8Size).sum

@[simp] theorem size_nil : size [] = 0 := rfl

@[simp] theorem size_cons (c : Char) (t : List Char) : size (c :: t) = c.utf8Size + size t := rfl

@[simp] theorem size_append (s t : List Char) : size (s ++ t) = size s + size t := by
  simp [size]

def isWs (c : Char) : Bool := c = ' ' ∨ c = '\n' ∨ c = '\t' ∨ c = '\r'

def skipWs (t : List Char) : List Char := t.dropWhile isWs

variable {c : Char} {s s' : StrState} {t rest : List Char} {r : List Char × List Char}
  {out : Option Char} {ms : List Member}

theorem skipWs_cons (h : isWs c = false) (t : List Char) : skipWs (c :: t) = c :: t := by
  rw [skipWs, List.dropWhile_cons_of_neg (by simp [h])]

theorem size_skipWs_le (t : List Char) : size (skipWs t) ≤ size t := by
  induction t with
  | nil => exact Nat.le_refl _
  | cons c t ih =>
    by_cases h : isWs c = true
    · rw [skipWs, List.dropWhile_cons_of_pos h, ← skipWs, size_cons]
      omega
    · exact Nat.le_of_eq (congrArg size (skipWs_cons (Bool.eq_false_iff.2 h) t))

theorem length_skipWs_le (t : List Char) : (skipWs t).length ≤ t.length :=
  (List.dropWhile_sublist isWs).length_le

/-! ### String literals -/

def hexVal (c : Char) : Option Nat :=
  if '0' ≤ c ∧ c ≤ '9' then some (c.toNat - 48)
  else if 'a' ≤ c ∧ c ≤ 'f' then some (c.toNat - 87)
  else if 'A' ≤ c ∧ c ≤ 'F' then some (c.toNat - 55)
  else none

def hexDigit (n : Nat) : Char := if n < 10 then Char.ofNat (48 + n) else Char.ofNat (87 + n)

def simpleEscape (c : Char) : Option Char :=
  if c = '"' then some '"'
  else if c = '\\' then some '\\'
  else if c = '/' then some '/'
  else if c = 'b' then some (Char.ofNat 8)
  else if c = 'f' then some (Char.ofNat 12)
  else if c = 'n' then some '\n'
  else if c = 'r' then some '\r'
  else if c = 't' then some '\t'
  else none

/-- Where the reader of a literal is: between characters, in an escape, or between the two halves
of a surrogate pair. -/
inductive StrState
  | plain
  | escape
  | hex (seen acc : Nat) (high : Option Nat)
  | backslash (high : Nat)
  | letterU (high : Nat)
deriving DecidableEq, Repr

inductive StrStep
  | fail
  | close
  | next (out : Option Char) (s : StrState)
deriving DecidableEq, Repr

def codePoint (n : Nat) (high : Option Nat) : StrStep :=
  match high with
  | none =>
    if 0xDC00 ≤ n ∧ n ≤ 0xDFFF then .fail
    else if 0xD800 ≤ n ∧ n ≤ 0xDBFF then .next none (.backslash n)
    else .next (some (Char.ofNat n)) .plain
  | some h =>
    if 0xDC00 ≤ n ∧ n ≤ 0xDFFF then
      .next (some (Char.ofNat ((h - 0xD800) * 1024 + (n - 0xDC00) + 0x10000))) .plain
    else .fail

def strStep : StrState → Char → StrStep
  | .plain, c =>
    if c = '"' then .close
    else if c = '\\' then .next none .escape
    else if c.toNat < 32 then .fail
    else .next (some c) .plain
  | .escape, c =>
    if c = 'u' then .next none (.hex 0 0 none)
    else match simpleEscape c with
      | some d => .next (some d) .plain
      | none => .fail
  | .hex seen acc high, c =>
    match hexVal c with
    | some d =>
      if seen < 3 then .next none (.hex (seen + 1) (acc * 16 + d) high)
      else codePoint (acc * 16 + d) high
    | none => .fail
  | .backslash high, c => if c = '\\' then .next none (.letterU high) else .fail
  | .letterU high, c => if c = 'u' then .next none (.hex 0 0 (some high)) else .fail

/-- Read a literal whose opening quote is behind: its characters, and what follows its closing
quote. -/
def readStr : StrState → List Char → Option (List Char × List Char)
  | _, [] => none
  | s, c :: t =>
    match strStep s c with
    | .fail => none
    | .close => some ([], t)
    | .next out s' => (readStr s' t).map fun r => (out.toList ++ r.1, r.2)

/-- How a character is written: only what has to be is escaped, in the shortest way. -/
def writeChar (c : Char) : List Char :=
  if c = '"' then ['\\', '"']
  else if c = '\\' then ['\\', '\\']
  else if c = Char.ofNat 8 then ['\\', 'b']
  else if c = '\t' then ['\\', 't']
  else if c = '\n' then ['\\', 'n']
  else if c = Char.ofNat 12 then ['\\', 'f']
  else if c = '\r' then ['\\', 'r']
  else if c.toNat < 32 then
    ['\\', 'u', '0', '0', hexDigit (c.toNat / 16), hexDigit (c.toNat % 16)]
  else [c]

def writeStr (s : List Char) : List Char := '"' :: (s.flatMap writeChar ++ ['"'])

/-! ### Values -/

inductive Frame
  | array
  | object
deriving DecidableEq, Repr

inductive Mode
  | value
  | ident (left : List Char)
  | minus
  | zero
  | int
  | dot
  | frac
  | exp
  | expSign
  | expDigits
  | str (isKey : Bool)
  | strEscape (isKey : Bool)
  | strHex (isKey : Bool) (seen : Nat)
  | opened (frame : Frame)
  | after (frame : Frame)
  | key
  | colon
deriving DecidableEq, Repr

structure ValState where
  mode : Mode
  stack : List Frame
deriving DecidableEq, Repr

inductive ValStep
  | fail
  | more (s : ValState)
  /-- The value ends with this character. -/
  | last
  /-- The value ended before this character. -/
  | before
deriving DecidableEq, Repr

def isDigit (c : Char) : Bool := '0' ≤ c ∧ c ≤ '9'

def completes (stack : List Frame) : ValStep :=
  match stack with
  | [] => .last
  | f :: outer => .more ⟨.after f, outer⟩

def valueStep (stack : List Frame) (c : Char) : ValStep :=
  if isWs c then .more ⟨.value, stack⟩
  else if c = 'n' then .more ⟨.ident ['u', 'l', 'l'], stack⟩
  else if c = 't' then .more ⟨.ident ['r', 'u', 'e'], stack⟩
  else if c = 'f' then .more ⟨.ident ['a', 'l', 's', 'e'], stack⟩
  else if c = '-' then .more ⟨.minus, stack⟩
  else if c = '0' then .more ⟨.zero, stack⟩
  else if isDigit c then .more ⟨.int, stack⟩
  else if c = '"' then .more ⟨.str false, stack⟩
  else if c = '[' then .more ⟨.opened .array, stack⟩
  else if c = '\x7b' then .more ⟨.opened .object, stack⟩
  else .fail

def keyStep (stack : List Frame) (c : Char) : ValStep :=
  if isWs c then .more ⟨.key, stack⟩
  else if c = '"' then .more ⟨.str true, stack⟩
  else .fail

def memberMode : Frame → Mode
  | .array => .value
  | .object => .key

def closing : Frame → Char
  | .array => ']'
  | .object => '\x7d'

def afterStep (f : Frame) (outer : List Frame) (c : Char) : ValStep :=
  if isWs c then .more ⟨.after f, outer⟩
  else if c = ',' then .more ⟨memberMode f, f :: outer⟩
  else if c = closing f then completes outer
  else .fail

def openedStep (f : Frame) (outer : List Frame) (c : Char) : ValStep :=
  if isWs c then .more ⟨.opened f, outer⟩
  else if c = closing f then completes outer
  else match f with
    | .array => valueStep (f :: outer) c
    | .object => keyStep (f :: outer) c

def numberEnd (stack : List Frame) (c : Char) : ValStep :=
  match stack with
  | [] => .before
  | f :: outer => afterStep f outer c

def stringEnd (isKey : Bool) (stack : List Frame) : ValStep :=
  if isKey then .more ⟨.colon, stack⟩ else completes stack

def valStep (s : ValState) (c : Char) : ValStep :=
  match s.mode with
  | .value => valueStep s.stack c
  | .ident left =>
    match left with
    | [] => .fail
    | [x] => if c = x then completes s.stack else .fail
    | x :: rest => if c = x then .more ⟨.ident rest, s.stack⟩ else .fail
  | .minus =>
    if c = '0' then .more ⟨.zero, s.stack⟩
    else if isDigit c then .more ⟨.int, s.stack⟩
    else .fail
  | .zero =>
    if isDigit c then .fail
    else if c = '.' then .more ⟨.dot, s.stack⟩
    else if c = 'e' ∨ c = 'E' then .more ⟨.exp, s.stack⟩
    else numberEnd s.stack c
  | .int =>
    if isDigit c then .more ⟨.int, s.stack⟩
    else if c = '.' then .more ⟨.dot, s.stack⟩
    else if c = 'e' ∨ c = 'E' then .more ⟨.exp, s.stack⟩
    else numberEnd s.stack c
  | .dot => if isDigit c then .more ⟨.frac, s.stack⟩ else .fail
  | .frac =>
    if isDigit c then .more ⟨.frac, s.stack⟩
    else if c = 'e' ∨ c = 'E' then .more ⟨.exp, s.stack⟩
    else numberEnd s.stack c
  | .exp =>
    if c = '+' ∨ c = '-' then .more ⟨.expSign, s.stack⟩
    else if isDigit c then .more ⟨.expDigits, s.stack⟩
    else .fail
  | .expSign => if isDigit c then .more ⟨.expDigits, s.stack⟩ else .fail
  | .expDigits => if isDigit c then .more ⟨.expDigits, s.stack⟩ else numberEnd s.stack c
  | .str isKey =>
    if c = '"' then stringEnd isKey s.stack
    else if c = '\\' then .more ⟨.strEscape isKey, s.stack⟩
    else if c.toNat < 32 then .fail
    else .more ⟨.str isKey, s.stack⟩
  | .strEscape isKey =>
    if c = 'u' then .more ⟨.strHex isKey 0, s.stack⟩
    else if (simpleEscape c).isSome then .more ⟨.str isKey, s.stack⟩
    else .fail
  | .strHex isKey seen =>
    -- whether the code point is valid is not looked at
    if (hexVal c).isSome then
      if seen < 3 then .more ⟨.strHex isKey (seen + 1), s.stack⟩
      else .more ⟨.str isKey, s.stack⟩
    else .fail
  | .opened f => openedStep f s.stack c
  | .after f => afterStep f s.stack c
  | .key => keyStep s.stack c
  | .colon =>
    if isWs c then .more ⟨.colon, s.stack⟩
    else if c = ':' then .more ⟨.value, s.stack⟩
    else .fail

def scan : ValState → List Char → Option (List Char × List Char)
  | _, [] => none
  | s, c :: t =>
    match valStep s c with
    | .fail => none
    | .more s' => (scan s' t).map fun r => (c :: r.1, r.2)
    | .last => some ([c], t)
    | .before => some ([], c :: t)

def readValue (t : List Char) : Option (List Char × List Char) := scan ⟨.value, []⟩ (skipWs t)

/-! ### Objects -/

structure Member where
  key : List Char
  value : List Char
deriving DecidableEq, Repr

def readMember (t : List Char) : Option (Member × List Char) :=
  match readStr .plain t with
  | none => none
  | some (key, rest) =>
    match skipWs rest with
    | c :: rest =>
      if c = ':' then (readValue rest).map fun r => (⟨key, r.1⟩, r.2) else none
    | [] => none

theorem readStr_length (h : readStr s t = some r) : r.2.length < t.length := by
  induction t generalizing s r with
  | nil => cases h
  | cons c t ih =>
    rw [readStr] at h
    split at h
    · cases h
    · cases h
      exact Nat.lt_succ_self _
    · obtain ⟨r', hr', rfl⟩ := Option.map_eq_some_iff.1 h
      have hlt := ih hr'
      rw [List.length_cons]
      exact Nat.lt_succ_of_lt hlt

theorem scan_eq {s : ValState} (h : scan s t = some r) : t = r.1 ++ r.2 := by
  induction t generalizing s r with
  | nil => cases h
  | cons c t ih =>
    rw [scan] at h
    split at h
    · cases h
    · obtain ⟨r', hr', rfl⟩ := Option.map_eq_some_iff.1 h
      rw [List.cons_append, ← ih hr']
    · cases h
      rfl
    · cases h
      rfl

theorem readMember_length {r : Member × List Char} (h : readMember t = some r) :
    r.2.length < t.length := by
  rw [readMember] at h
  split at h
  · cases h
  · next key rest hstr =>
    have hlt := readStr_length hstr
    have hws := length_skipWs_le rest
    split at h
    · next c rest' hskip =>
      split at h
      · obtain ⟨v, hv, rfl⟩ := Option.map_eq_some_iff.1 h
        have hvalue := congrArg List.length (scan_eq hv)
        have hws' := length_skipWs_le rest'
        rw [hskip, List.length_cons] at hws
        rw [List.length_append] at hvalue
        dsimp only at hlt ⊢
        omega
      · cases h
    · cases h

def readMembers (t : List Char) : Option (List Member × List Char) :=
  match _hws : skipWs t with
  | [] => none
  | c :: rest =>
    if c = '\x7d' then some ([], rest)
    else if c = ',' then
      match _hkey : skipWs rest with
      | [] => none
      | q :: rest' =>
        if q = '"' then
          match _hm : readMember rest' with
          | none => none
          | some m => (readMembers m.2).map fun r => (m.1 :: r.1, r.2)
        else none
    else none
termination_by t.length
decreasing_by
  have h₁ := length_skipWs_le t
  have h₂ := length_skipWs_le rest
  have h₃ := readMember_length _hm
  rw [_hws, List.length_cons] at h₁
  rw [_hkey, List.length_cons] at h₂
  omega

def readObject (t : List Char) : Option (List Member) :=
  match skipWs t with
  | [] => none
  | c :: rest =>
    if c = '\x7b' then
      match skipWs rest with
      | [] => none
      | q :: rest' =>
        if q = '\x7d' then if skipWs rest' = [] then some [] else none
        else if q = '"' then
          match readMember rest' with
          | none => none
          | some m =>
            match readMembers m.2 with
            | none => none
            | some r => if skipWs r.2 = [] then some (m.1 :: r.1) else none
        else none
    else none

/-! ### What is written is read back -/

theorem utf8Size_hexDigit (n : Nat) : (hexDigit (n % 16)).utf8Size = 1 := by
  have h : ∀ k : Fin 16, (hexDigit k).utf8Size = 1 := by decide
  exact h ⟨n % 16, Nat.mod_lt _ (by decide)⟩

theorem hexVal_hexDigit {n : Nat} (hn : n < 16) : hexVal (hexDigit n) = some n := by
  have h : ∀ k : Fin 16, hexVal (hexDigit k) = some k.val := by decide
  exact h ⟨n, hn⟩

theorem readStr_next (h : strStep s c = .next out s') (t : List Char) : readStr s (c :: t) =
      (readStr s' t).map fun r => (out.toList ++ r.1, r.2) := by
  rw [readStr, h]

theorem readStr_silent (h : strStep s c = .next none s') (t : List Char) :
    readStr s (c :: t) = readStr s' t := by
  rw [readStr_next h]
  cases readStr s' t with
  | none => rfl
  | some r => rfl

theorem readStr_escape {d : Char} (hu : c ≠ 'u') (h : simpleEscape c = some d) (t : List Char) :
    readStr .plain ('\\' :: c :: t) = (readStr .plain t).map fun r => (d :: r.1, r.2) := by
  have hstep : strStep .escape c = .next (some d) .plain := by
    simp only [strStep, if_neg hu, h]
  have hopen : strStep .plain '\\' = .next none .escape := by decide
  rw [readStr_silent hopen, readStr_next hstep]
  rfl

theorem strStep_hex {seen acc d : Nat} {high : Option Nat} (hd : d < 16) (hseen : seen < 3) :
    strStep (.hex seen acc high) (hexDigit d) = .next none (.hex (seen + 1) (acc * 16 + d) high) := by
  simp only [strStep, hexVal_hexDigit hd, if_pos hseen]

theorem readStr_control (hc : c.toNat < 32) (t : List Char) :
    readStr .plain ('\\' :: 'u' :: '0' :: '0' :: hexDigit (c.toNat / 16) ::
      hexDigit (c.toNat % 16) :: t) = (readStr .plain t).map fun r => (c :: r.1, r.2) := by
  have hlast : strStep (.hex 3 (c.toNat / 16) none) (hexDigit (c.toNat % 16)) =
      .next (some c) .plain := by
    have hsum : c.toNat / 16 * 16 + c.toNat % 16 = c.toNat := by omega
    simp only [strStep, hexVal_hexDigit (Nat.mod_lt _ (by decide : 0 < 16)), Nat.lt_irrefl,
      if_false, codePoint, hsum, Char.ofNat_toNat]
    rw [if_neg (by omega), if_neg (by omega)]
  have hthird : strStep (.hex 2 0 none) (hexDigit (c.toNat / 16)) =
      .next none (.hex 3 (c.toNat / 16) none) := by
    rw [strStep_hex (by omega) (by decide), Nat.zero_mul, Nat.zero_add]
  have hopen : strStep .plain '\\' = .next none .escape := by decide
  have hletter : strStep .escape 'u' = .next none (.hex 0 0 none) := by decide
  have hfirst : strStep (.hex 0 0 none) '0' = .next none (.hex 1 0 none) := by decide
  have hsecond : strStep (.hex 1 0 none) '0' = .next none (.hex 2 0 none) := by decide
  rw [readStr_silent hopen, readStr_silent hletter, readStr_silent hfirst, readStr_silent hsecond,
    readStr_silent hthird, readStr_next hlast]
  rfl

theorem readStr_writeChar (c : Char) (t : List Char) :
    readStr .plain (writeChar c ++ t) = (readStr .plain t).map fun r => (c :: r.1, r.2) := by
  rw [writeChar]
  split
  case isTrue h =>
    subst h
    exact readStr_escape (by decide) (by decide) t
  split
  case isTrue h =>
    subst h
    exact readStr_escape (by decide) (by decide) t
  split
  case isTrue h =>
    subst h
    exact readStr_escape (by decide) (by decide) t
  split
  case isTrue h =>
    subst h
    exact readStr_escape (by decide) (by decide) t
  split
  case isTrue h =>
    subst h
    exact readStr_escape (by decide) (by decide) t
  split
  case isTrue h =>
    subst h
    exact readStr_escape (by decide) (by decide) t
  split
  case isTrue h =>
    subst h
    exact readStr_escape (by decide) (by decide) t
  split
  case isTrue hctl => exact readStr_control hctl t
  case isFalse hq hb _ _ _ _ _ hctl =>
    have hstep : strStep .plain c = .next (some c) .plain := by
      simp only [strStep, if_neg hq, if_neg hb, if_neg hctl]
    exact readStr_next hstep t

theorem readStr_write (s t : List Char) :
    readStr .plain (s.flatMap writeChar ++ '"' :: t) = some (s, t) := by
  induction s with
  | nil => rfl
  | cons c s ih =>
    rw [List.flatMap_cons, List.append_assoc, readStr_writeChar, ih]
    rfl

/-! ### Sizes -/

theorem size_writeChar_le (c : Char) : size (writeChar c) ≤ 6 := by
  have hfour := c.utf8Size_le_four
  have hbackslash : '\\'.utf8Size = 1 := by decide
  have hu : 'u'.utf8Size = 1 := by decide
  have hzero : '0'.utf8Size = 1 := by decide
  rw [writeChar]
  split
  · decide
  split
  · decide
  split
  · decide
  split
  · decide
  split
  · decide
  split
  · decide
  split
  · decide
  split
  case isTrue hctl =>
    have hhigh : (hexDigit (c.toNat / 16)).utf8Size = 1 := by
      have h := utf8Size_hexDigit (c.toNat / 16)
      rwa [Nat.mod_eq_of_lt (by omega)] at h
    simp only [size_cons, size_nil, hhigh, utf8Size_hexDigit, hbackslash, hu, hzero]
    decide
  case isFalse =>
    rw [size_cons, size_nil]
    omega

theorem writeChar_plain (hq : c ≠ '"') (hb : c ≠ '\\') (hc : ¬ c.toNat < 32) :
    writeChar c = [c] := by
  have hne : ∀ d : Char, d.toNat < 32 → c ≠ d := by
    rintro d hd rfl
    exact hc hd
  rw [writeChar, if_neg hq, if_neg hb, if_neg (hne _ (by decide)), if_neg (hne _ (by decide)),
    if_neg (hne _ (by decide)), if_neg (hne _ (by decide)), if_neg (hne _ (by decide)), if_neg hc]

theorem size_writeChar_simpleEscape {d : Char} (h : simpleEscape c = some d) :
    size (writeChar d) ≤ 2 := by
  unfold simpleEscape at h
  repeat' split at h
  all_goals cases h
  all_goals decide

def pending : StrState → Nat
  | .plain => 0
  | .escape => 1
  | .hex seen _ none => 2 + seen
  | .backslash _ => 6
  | .letterU _ => 7
  | .hex seen _ (some _) => 8 + seen

theorem size_codePoint {n : Nat} {high : Option Nat} (h : codePoint n high = .next out s) :
    size (out.toList.flatMap writeChar) + pending s ≤ 6 := by
  have hchar : ∀ c : Char, size ((some c).toList.flatMap writeChar) + pending .plain ≤ 6 := by
    intro c
    simpa [pending] using size_writeChar_le c
  cases high with
  | none =>
    simp only [codePoint] at h
    split at h
    · cases h
    · split at h
      · cases h
        exact Nat.le_refl _
      · cases h
        exact hchar _
  | some high =>
    simp only [codePoint] at h
    split at h
    · cases h
      exact hchar _
    · cases h

theorem size_strStep (h : strStep s c = .next out s') :
    size (out.toList.flatMap writeChar) + pending s' ≤ pending s + c.utf8Size := by
  have hpos := c.utf8Size_pos
  cases s with
  | plain =>
    simp only [strStep] at h
    split at h
    · cases h
    · next hq =>
      split at h
      · cases h
        simp only [Option.toList_none, List.flatMap_nil, size_nil, pending]
        omega
      · next hb =>
        split at h
        · cases h
        · next hc =>
          cases h
          simp [writeChar_plain hq hb hc, pending]
  | escape =>
    simp only [strStep] at h
    split at h
    · cases h
      simp only [Option.toList_none, List.flatMap_nil, size_nil, pending]
      omega
    · split at h
      · next d hd =>
        cases h
        have hsize := size_writeChar_simpleEscape hd
        simp only [Option.toList_some, List.flatMap_singleton, pending]
        omega
      · cases h
  | hex seen acc high =>
    simp only [strStep] at h
    split at h
    · split at h
      · cases h
        cases high with
        | none =>
          simp only [Option.toList_none, List.flatMap_nil, size_nil, pending]
          omega
        | some high =>
          simp only [Option.toList_none, List.flatMap_nil, size_nil, pending]
          omega
      · next hseen =>
        have hsize := size_codePoint h
        cases high with
        | none =>
          have hstate : pending (.hex seen acc none) = 2 + seen := rfl
          omega
        | some high =>
          have hstate : pending (.hex seen acc (some high)) = 8 + seen := rfl
          omega
    · cases h
  | backslash high =>
    simp only [strStep] at h
    split at h
    · cases h
      simp only [Option.toList_none, List.flatMap_nil, size_nil, pending]
      omega
    · cases h
  | letterU high =>
    simp only [strStep] at h
    split at h
    · cases h
      simp only [Option.toList_none, List.flatMap_nil, size_nil, pending]
      omega
    · cases h

theorem strStep_close (h : strStep s c = .close) : s = .plain := by
  cases s with
  | plain => rfl
  | escape =>
    simp only [strStep] at h
    split at h
    · cases h
    · split at h
      · cases h
      · cases h
  | hex seen acc high =>
    simp only [strStep] at h
    split at h
    · split at h
      · cases h
      · simp only [codePoint] at h
        split at h
        · split at h
          · cases h
          · split at h
            · cases h
            · cases h
        · split at h
          · cases h
          · cases h
    · cases h
  | backslash high =>
    simp only [strStep] at h
    split at h
    · cases h
    · cases h
  | letterU high =>
    simp only [strStep] at h
    split at h
    · cases h
    · cases h

theorem size_readStr (h : readStr s t = some r) :
    size (r.1.flatMap writeChar) + 1 + size r.2 ≤ pending s + size t := by
  induction t generalizing s r with
  | nil => cases h
  | cons c t ih =>
    have hpos := c.utf8Size_pos
    rw [readStr] at h
    split at h
    · cases h
    · next hclose =>
      cases h
      rw [strStep_close hclose, size_cons]
      simp only [List.flatMap_nil, size_nil, pending]
      omega
    · next out s' hstep =>
      obtain ⟨r', hr', rfl⟩ := Option.map_eq_some_iff.1 h
      have hlater := ih hr'
      have hnow := size_strStep hstep
      simp only [List.flatMap_append, size_append, size_cons]
      omega

/-! ### Values keep their extent -/

def Delimits (c : Char) : Prop := isDigit c = false ∧ c ≠ '.' ∧ c ≠ 'e' ∧ c ≠ 'E'

instance (c : Char) : Decidable (Delimits c) := inferInstanceAs (Decidable (_ ∧ _))

theorem completes_ne_before (stack : List Frame) : completes stack ≠ .before := by
  cases stack with
  | nil => exact ValStep.noConfusion
  | cons f outer => exact ValStep.noConfusion

theorem valueStep_ne_before (stack : List Frame) (c : Char) : valueStep stack c ≠ .before := by
  unfold valueStep
  repeat' split
  all_goals exact ValStep.noConfusion

theorem keyStep_ne_before (stack : List Frame) (c : Char) : keyStep stack c ≠ .before := by
  unfold keyStep
  repeat' split
  all_goals exact ValStep.noConfusion

theorem afterStep_ne_before (f : Frame) (outer : List Frame) (c : Char) :
    afterStep f outer c ≠ .before := by
  unfold afterStep
  split
  · exact ValStep.noConfusion
  · split
    · exact ValStep.noConfusion
    · split
      · exact completes_ne_before outer
      · exact ValStep.noConfusion

theorem openedStep_ne_before (f : Frame) (outer : List Frame) (c : Char) :
    openedStep f outer c ≠ .before := by
  unfold openedStep
  split
  · exact ValStep.noConfusion
  · split
    · exact completes_ne_before outer
    · cases f with
      | array => exact valueStep_ne_before _ c
      | object => exact keyStep_ne_before _ c

theorem stringEnd_ne_before (isKey : Bool) (stack : List Frame) :
    stringEnd isKey stack ≠ .before := by
  unfold stringEnd
  split
  · exact ValStep.noConfusion
  · exact completes_ne_before stack

theorem numberEnd_before {stack : List Frame} (h : numberEnd stack c = .before) : stack = [] := by
  cases stack with
  | nil => rfl
  | cons f outer => exact absurd h (afterStep_ne_before f outer c)

theorem valStep_before {s : ValState} {c' : Char} (h : valStep s c = .before) (hc' : Delimits c') :
    valStep s c' = .before := by
  obtain ⟨mode, stack⟩ := s
  obtain ⟨hdigit, hdot, he, hE⟩ := hc'
  cases mode with
  | value => exact absurd h (valueStep_ne_before stack c)
  | ident left =>
    simp only [valStep] at h
    split at h
    · cases h
    · split at h
      · exact absurd h (completes_ne_before stack)
      · cases h
    · split at h
      · cases h
      · cases h
  | minus =>
    simp only [valStep] at h
    repeat' split at h
    all_goals cases h
  | zero =>
    simp only [valStep] at h
    split at h
    · cases h
    · split at h
      · cases h
      · split at h
        · cases h
        · rw [numberEnd_before h]
          simp [valStep, hdigit, hdot, he, hE, numberEnd]
  | int =>
    simp only [valStep] at h
    split at h
    · cases h
    · split at h
      · cases h
      · split at h
        · cases h
        · rw [numberEnd_before h]
          simp [valStep, hdigit, hdot, he, hE, numberEnd]
  | dot =>
    simp only [valStep] at h
    repeat' split at h
    all_goals cases h
  | frac =>
    simp only [valStep] at h
    split at h
    · cases h
    · split at h
      · cases h
      · rw [numberEnd_before h]
        simp [valStep, hdigit, he, hE, numberEnd]
  | exp =>
    simp only [valStep] at h
    repeat' split at h
    all_goals cases h
  | expSign =>
    simp only [valStep] at h
    repeat' split at h
    all_goals cases h
  | expDigits =>
    simp only [valStep] at h
    split at h
    · cases h
    · rw [numberEnd_before h]
      simp [valStep, hdigit, numberEnd]
  | str isKey =>
    simp only [valStep] at h
    repeat' split at h
    all_goals first | exact absurd h (stringEnd_ne_before isKey stack) | cases h
  | strEscape isKey =>
    simp only [valStep] at h
    repeat' split at h
    all_goals cases h
  | strHex isKey seen =>
    simp only [valStep] at h
    repeat' split at h
    all_goals cases h
  | opened f => exact absurd h (openedStep_ne_before f stack c)
  | after f => exact absurd h (afterStep_ne_before f stack c)
  | key => exact absurd h (keyStep_ne_before stack c)
  | colon =>
    simp only [valStep] at h
    repeat' split at h
    all_goals cases h

theorem scan_extent {s : ValState} (h : scan s t = some r) (hc : Delimits c) (rest : List Char) :
    scan s (r.1 ++ c :: rest) = some (r.1, c :: rest) := by
  induction t generalizing s r with
  | nil => cases h
  | cons x t ih =>
    rw [scan] at h
    split at h
    · cases h
    · next s' hstep =>
      obtain ⟨r', hr', rfl⟩ := Option.map_eq_some_iff.1 h
      dsimp only
      rw [List.cons_append, scan, hstep]
      dsimp only
      rw [ih hr']
      rfl
    · next hstep =>
      cases h
      dsimp only
      rw [List.cons_append, List.nil_append, scan, hstep]
    · next hstep =>
      cases h
      dsimp only
      rw [List.nil_append, scan, valStep_before hstep hc]

def IsValue (v : List Char) : Prop :=
  ∀ c rest, Delimits c → readValue (v ++ c :: rest) = some (v, c :: rest)

theorem isWs_of_skipWs (h : skipWs t = c :: rest) : isWs c = false := by
  have hhead := List.head?_dropWhile_not isWs t
  rw [skipWs] at h
  rw [h] at hhead
  simpa using hhead

theorem isValue_of_readValue (h : readValue t = some r) : IsValue r.1 := by
  intro c rest hc
  have hextent := scan_extent h hc rest
  have hsplit := scan_eq h
  obtain ⟨v, rest'⟩ := r
  cases v with
  | nil =>
    exfalso
    rw [readValue] at h
    dsimp only [List.nil_append] at hsplit
    rw [hsplit] at h
    cases rest' with
    | nil => cases h
    | cons x rest' =>
      rw [scan] at h
      split at h
      · cases h
      · obtain ⟨r', -, hr'⟩ := Option.map_eq_some_iff.1 h
        cases hr'
      · cases h
      · next hstep => exact valueStep_ne_before _ _ hstep
  | cons x v =>
    have hws : isWs x = false := isWs_of_skipWs hsplit
    rw [readValue]
    dsimp only at hextent ⊢
    rw [List.cons_append, skipWs_cons hws, ← List.cons_append]
    exact hextent

/-! ### Objects that are written -/

def memberText (m : Member) : List Char := writeStr m.key ++ ':' :: m.value

def renderTail : List Member → List Char
  | [] => ['\x7d']
  | m :: ms => ',' :: (memberText m ++ renderTail ms)

def renderObject : List Member → List Char
  | [] => ['\x7b', '\x7d']
  | m :: ms => '\x7b' :: (memberText m ++ renderTail ms)

theorem memberText_append (m : Member) (t : List Char) :
    memberText m ++ t = '"' :: (m.key.flatMap writeChar ++ '"' :: ':' :: (m.value ++ t)) := by
  simp [memberText, writeStr]

theorem renderTail_cons (ms : List Member) : ∃ c rest, renderTail ms = c :: rest ∧ Delimits c := by
  cases ms with
  | nil => exact ⟨_, _, rfl, by decide⟩
  | cons m ms => exact ⟨_, _, rfl, by decide⟩

theorem readMember_write {m : Member} (hm : IsValue m.value) (ms : List Member) :
    readMember (m.key.flatMap writeChar ++ '"' :: ':' :: (m.value ++ renderTail ms)) =
      some (m, renderTail ms) := by
  obtain ⟨c, rest, htail, hc⟩ := renderTail_cons ms
  rw [readMember, readStr_write]
  dsimp only
  rw [skipWs_cons (by decide)]
  dsimp only
  rw [if_pos rfl, htail, hm c rest hc]
  rfl

theorem readMembers_close (h : skipWs t = '\x7d' :: rest) : readMembers t = some ([], rest) := by
  rw [readMembers]
  split
  · next hnil => rw [hnil] at h; cases h
  · next c rest' hcons =>
    rw [hcons] at h
    cases h
    rfl

theorem readMembers_comma {rest' : List Char} {m : Member × List Char} (h : skipWs t = ',' :: rest)
    (hkey : skipWs rest = '"' :: rest') (hm : readMember rest' = some m) :
    readMembers t = (readMembers m.2).map fun r => (m.1 :: r.1, r.2) := by
  rw [readMembers]
  split
  · next hnil => rw [hnil] at h; cases h
  · next c u hcons =>
    rw [hcons] at h
    cases h
    rw [if_neg (by decide), if_pos rfl]
    split
    · next hnil => rw [hnil] at hkey; cases hkey
    · next q v hq =>
      rw [hq] at hkey
      cases hkey
      rw [if_pos rfl]
      split
      · next hnone => rw [hnone] at hm; cases hm
      · next m' hsome =>
        rw [hsome] at hm
        cases hm
        rfl

theorem readMembers_render (h : ∀ m ∈ ms, IsValue m.value) :
    readMembers (renderTail ms) = some (ms, []) := by
  induction ms with
  | nil => exact readMembers_close (skipWs_cons (by decide) _)
  | cons m ms ih =>
    obtain ⟨hm, hms⟩ := List.forall_mem_cons.1 h
    have hcomma : skipWs (renderTail (m :: ms)) = ',' :: (memberText m ++ renderTail ms) :=
      skipWs_cons (by decide) _
    have hquote : skipWs (memberText m ++ renderTail ms) = memberText m ++ renderTail ms := by
      rw [memberText_append, skipWs_cons (by decide)]
    rw [readMembers_comma hcomma (hquote.trans (memberText_append m _)) (readMember_write hm ms),
      ih hms]
    rfl

theorem readObject_render (h : ∀ m ∈ ms, IsValue m.value) :
    readObject (renderObject ms) = some ms := by
  cases ms with
  | nil => decide
  | cons m ms =>
    obtain ⟨hm, hms⟩ := List.forall_mem_cons.1 h
    rw [readObject, renderObject, skipWs_cons (by decide)]
    dsimp only
    rw [if_pos rfl, memberText_append, skipWs_cons (by decide)]
    dsimp only
    rw [if_neg (by decide), if_pos rfl, readMember_write hm ms]
    dsimp only
    rw [readMembers_render hms]
    rfl

/-! ### Objects that are read -/

def membersSize (ms : List Member) : Nat := (ms.map fun m => size (memberText m) + 1).sum

theorem size_memberText (m : Member) :
    size (memberText m) = size (m.key.flatMap writeChar) + 3 + size m.value := by
  have hquote : '"'.utf8Size = 1 := by decide
  have hcolon : ':'.utf8Size = 1 := by decide
  simp only [memberText, writeStr, size_append, size_cons, size_nil, hquote, hcolon]
  omega

theorem readMember_size {r : Member × List Char} (h : readMember t = some r) :
    IsValue r.1.value ∧ size (memberText r.1) + size r.2 ≤ size t + 1 := by
  rw [readMember] at h
  split at h
  · cases h
  · next key rest hstr =>
    have hkey := size_readStr hstr
    have hws := size_skipWs_le rest
    split at h
    · next c rest' hskip =>
      split at h
      · next hcolon =>
        subst hcolon
        obtain ⟨v, hv, rfl⟩ := Option.map_eq_some_iff.1 h
        have hvalue := congrArg size (scan_eq hv)
        have hws' := size_skipWs_le rest'
        have hone : ':'.utf8Size = 1 := by decide
        rw [hskip, size_cons] at hws
        rw [size_append] at hvalue
        refine ⟨isValue_of_readValue hv, ?_⟩
        rw [size_memberText]
        dsimp only [pending] at hkey ⊢
        omega
      · cases h
    · cases h

theorem readMembers_some {r : List Member × List Char} (h : readMembers t = some r) :
    (∃ rest, skipWs t = '\x7d' :: rest ∧ r = ([], rest)) ∨
      ∃ rest rest' m r', skipWs t = ',' :: rest ∧ skipWs rest = '"' :: rest' ∧
        readMember rest' = some m ∧ readMembers m.2 = some r' ∧ r = (m.1 :: r'.1, r'.2) := by
  rw [readMembers] at h
  split at h
  · cases h
  · next c rest hws =>
    split at h
    · next hc =>
      subst hc
      cases h
      exact .inl ⟨rest, hws, rfl⟩
    · split at h
      · next hc =>
        subst hc
        split at h
        · cases h
        · next q rest' hkey =>
          split at h
          · next hq =>
            subst hq
            split at h
            · cases h
            · next m hm =>
              obtain ⟨r', hr', rfl⟩ := Option.map_eq_some_iff.1 h
              exact .inr ⟨rest, rest', m, r', hws, hkey, hm, hr', rfl⟩
          · cases h
      · cases h

theorem size_skipWs_cons (h : skipWs t = c :: rest) : 1 + size rest ≤ size t := by
  have hle := size_skipWs_le t
  have hpos := c.utf8Size_pos
  rw [h, size_cons] at hle
  omega

theorem readMembers_size {r : List Member × List Char} (h : readMembers t = some r) :
    (∀ m ∈ r.1, IsValue m.value) ∧ membersSize r.1 + 1 + size r.2 ≤ size t := by
  induction hn : t.length using Nat.strongRecOn generalizing t r with
  | ind n ih =>
    rcases readMembers_some h with ⟨rest, hws, rfl⟩ | ⟨rest, rest', m, r', hws, hkey, hm, hr', rfl⟩
    · have hclose := size_skipWs_cons hws
      refine ⟨by simp, ?_⟩
      simpa [membersSize] using hclose
    · have hcomma := size_skipWs_cons hws
      have hquote := size_skipWs_cons hkey
      have hlt : m.2.length < n := by
        have h₁ := length_skipWs_le t
        have h₂ := length_skipWs_le rest
        have h₃ := readMember_length hm
        rw [hws, List.length_cons] at h₁
        rw [hkey, List.length_cons] at h₂
        omega
      obtain ⟨hvalue, hsize⟩ := readMember_size hm
      obtain ⟨hvalues, hsizes⟩ := ih _ hlt hr' rfl
      refine ⟨List.forall_mem_cons.2 ⟨hvalue, hvalues⟩, ?_⟩
      simp only [membersSize, List.map_cons, List.sum_cons] at hsizes ⊢
      omega

theorem readObject_size (h : readObject t = some ms) :
    (∀ m ∈ ms, IsValue m.value) ∧ membersSize ms + 1 ≤ size t := by
  rw [readObject] at h
  split at h
  · cases h
  · next c rest hws =>
    have hopen := size_skipWs_cons hws
    split at h
    · split at h
      · cases h
      · next q rest' hkey =>
        have hquote := size_skipWs_cons hkey
        split at h
        · split at h
          · cases h
            refine ⟨by simp, ?_⟩
            simp only [membersSize, List.map_nil, List.sum_nil]
            omega
          · cases h
        · split at h
          · split at h
            · cases h
            · next m hm =>
              obtain ⟨hvalue, hsize⟩ := readMember_size hm
              split at h
              · cases h
              · next r hr =>
                obtain ⟨hvalues, hsizes⟩ := readMembers_size hr
                split at h
                · cases h
                  refine ⟨List.forall_mem_cons.2 ⟨hvalue, hvalues⟩, ?_⟩
                  simp only [membersSize, List.map_cons, List.sum_cons] at hsizes ⊢
                  omega
                · cases h
          · cases h
    · cases h

end Json

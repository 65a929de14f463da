import WorkflowTree.Files.Path

/-!
# Patterns

A pattern selects paths. It consists of components, each for one component of a path: a text,
a text with wildcards, or two stars for any number of directories.
-/

namespace WorkflowTree

/-- Why a text is no pattern. -/
inductive PatternFlaw
  /-- More than two stars stand together. -/
  | tooManyStars
  /-- Two stars stand beside other characters. -/
  | starsInName
  /-- A set of characters is empty or not closed. -/
  | badSet
  deriving DecidableEq, Repr

/-- The flaw in words. -/
def PatternFlaw.message : PatternFlaw → String
  | tooManyStars => "wildcards are either regular \x60*\x60 or recursive \x60**\x60"
  | starsInName => "recursive wildcards must form a single path component"
  | badSet => "invalid range pattern"

/-- A range of characters, both ends included. -/
structure CharRange where
  first : Char
  last : Char
  deriving DecidableEq, Repr

/-- The range has this character. -/
def CharRange.has (r : CharRange) (c : Char) : Bool := r.first ≤ c && c ≤ r.last

/-- A part of a component with wildcards. -/
inductive Wildcard
  | char (c : Char)
  | anyChar
  | anyText
  | oneOf (ranges : List CharRange)
  | noneOf (ranges : List CharRange)
  deriving DecidableEq, Repr

/-- A component of a pattern. -/
inductive PatternComponent
  /-- Any number of directories. -/
  | directories
  /-- A name that the wildcards match. -/
  | name (ws : List Wildcard)
  deriving DecidableEq, Repr

namespace Wildcard

/-- The wildcard matches one character. An arbitrary text is none. -/
def matchesChar : Wildcard → Char → Bool
  | char c, d => c == d
  | anyChar, _ => true
  | anyText, _ => false
  | oneOf ranges, d => ranges.any (·.has d)
  | noneOf ranges, d => !ranges.any (·.has d)

/-- For each answer, whether it or a later one is positive. -/
def orLater : List Bool → List Bool
  | [] => []
  | b :: bs =>
    let later := orLater bs
    (b || later.headD false) :: later

/-- For each suffix of a text, the longest first, whether the wildcards match it from its
start to its end. The empty text has itself as its only suffix. -/
def matchesSuffixes : List Wildcard → List Char → List Bool
  | [], cs => List.replicate cs.length false ++ [true]
  | anyText :: ws, cs => orLater (matchesSuffixes ws cs)
  | w :: ws, cs =>
    List.zipWith (fun c behind => w.matchesChar c && behind) cs (matchesSuffixes ws cs).tail
      ++ [false]

/-- The wildcards match a text from its start to its end. -/
def matchesAll (ws : List Wildcard) (cs : List Char) : Bool := (matchesSuffixes ws cs).headD false

theorem length_orLater (bs : List Bool) : (orLater bs).length = bs.length := by
  induction bs with
  | nil => rfl
  | cons b bs ih => simp only [orLater, List.length_cons, ih]

theorem length_matchesSuffixes (ws : List Wildcard) (cs : List Char) :
    (matchesSuffixes ws cs).length = cs.length + 1 := by
  fun_induction matchesSuffixes ws cs with
  | case1 cs => simp
  | case2 cs ws ih => rw [length_orLater, ih]
  | case3 cs w ws _ ih => simp [ih]

/-- Behind its first answer, the answers for a text are those for the text behind its first
character. -/
theorem tail_matchesSuffixes (ws : List Wildcard) (c : Char) (cs : List Char) :
    (matchesSuffixes ws (c :: cs)).tail = matchesSuffixes ws cs := by
  have split_answers (ws : List Wildcard) (ih : (matchesSuffixes ws (c :: cs)).tail
      = matchesSuffixes ws cs) :
      ∃ b, matchesSuffixes ws (c :: cs) = b :: matchesSuffixes ws cs := by
    have hlen := length_matchesSuffixes ws (c :: cs)
    cases h : matchesSuffixes ws (c :: cs) with
    | nil => simp [h] at hlen
    | cons b bs => exact ⟨b, by rw [← ih, h, List.tail_cons]⟩
  induction ws with
  | nil => simp [matchesSuffixes, List.replicate_succ]
  | cons w ws ih =>
    obtain ⟨b, hb⟩ := split_answers ws ih
    have hlen := length_matchesSuffixes ws cs
    cases hs : matchesSuffixes ws cs with
    | nil => simp [hs] at hlen
    | cons d ds => cases w <;> simp [matchesSuffixes, orLater, hb, hs]

theorem matchesSuffixes_cons (ws : List Wildcard) (c : Char) (cs : List Char) :
    matchesSuffixes ws (c :: cs) = matchesAll ws (c :: cs) :: matchesSuffixes ws cs := by
  have hlen := length_matchesSuffixes ws (c :: cs)
  have htail := tail_matchesSuffixes ws c cs
  cases h : matchesSuffixes ws (c :: cs) with
  | nil => simp [h] at hlen
  | cons b bs => simpa [matchesAll, h] using htail

@[simp] theorem matchesAll_nil (cs : List Char) : matchesAll [] cs = cs.isEmpty := by
  cases cs <;> simp [matchesAll, matchesSuffixes, List.replicate_succ]

theorem matchesAll_anyText_nil (ws : List Wildcard) :
    matchesAll (anyText :: ws) [] = matchesAll ws [] := by
  have hlen := length_matchesSuffixes ws []
  match h : matchesSuffixes ws [] with
  | [] => simp [h] at hlen
  | [b] => simp [matchesAll, matchesSuffixes, orLater, h]
  | _ :: _ :: _ => simp [h] at hlen

/-- An arbitrary text is empty or has one more character. -/
theorem matchesAll_anyText_cons (ws : List Wildcard) (c : Char) (cs : List Char) :
    matchesAll (anyText :: ws) (c :: cs)
      = (matchesAll ws (c :: cs) || matchesAll (anyText :: ws) cs) := by
  simp only [matchesAll, matchesSuffixes]
  rw [matchesSuffixes_cons]
  simp [orLater, matchesAll]

theorem matchesAll_cons {w : Wildcard} (h : w ≠ anyText) (ws : List Wildcard) (c : Char)
    (cs : List Char) :
    matchesAll (w :: ws) (c :: cs) = (w.matchesChar c && matchesAll ws cs) := by
  have hlen := length_matchesSuffixes ws cs
  have htail := tail_matchesSuffixes ws c cs
  cases hs : matchesSuffixes ws cs with
  | nil => simp [hs] at hlen
  | cons d ds => cases w <;> simp_all [matchesAll, matchesSuffixes]

theorem matchesAll_cons_nil {w : Wildcard} (h : w ≠ anyText) (ws : List Wildcard) :
    matchesAll (w :: ws) [] = false := by
  cases w <;> simp_all [matchesAll, matchesSuffixes]

/-- The character, if the wildcard stands for just one. -/
def literal? : Wildcard → Option Char
  | char c => some c
  | _ => none

/-- The ranges of a set: pairs of characters with a dash between them, and single ones. -/
def ranges : List Char → List CharRange
  | a :: '-' :: b :: cs => ⟨a, b⟩ :: ranges cs
  | a :: cs => ⟨a, a⟩ :: ranges cs
  | [] => []

/-- Reads a set of characters behind its opening bracket: a bracket that closes it stands
behind at least one character. -/
def readSet? (cs : List Char) : Option (Wildcard × List Char) :=
  let (negated, cs) := match cs with
    | '!' :: cs => (true, cs)
    | cs => (false, cs)
  match cs with
  | [] => none
  | c :: cs =>
    match cs.dropWhile (· != ']') with
    | [] => none
    | _ :: rest =>
      let set := ranges (c :: cs.takeWhile (· != ']'))
      some (if negated then noneOf set else oneOf set, rest)

/-- Reads one wildcard. -/
def readOne : List Char → Except PatternFlaw (Option (Wildcard × List Char))
  | [] => .ok none
  | '?' :: cs => .ok (some (anyChar, cs))
  | '*' :: cs =>
    match cs with
    | '*' :: '*' :: _ => .error .tooManyStars
    | '*' :: _ => .error .starsInName
    | _ => .ok (some (anyText, cs))
  | '[' :: cs =>
    match readSet? cs with
    | some r => .ok (some r)
    | none => .error .badSet
  | c :: cs => .ok (some (char c, cs))

/-- Reads wildcards, at most `n` of them. -/
def readAll : Nat → List Char → Except PatternFlaw (List Wildcard)
  | 0, _ => .ok []
  | n + 1, cs => do
    match ← readOne cs with
    | none => return []
    | some (w, cs) => return w :: (← readAll n cs)

end Wildcard

namespace PatternComponent

/-- Reads a component. No wildcard is written with less than one character. -/
def read (cs : List Char) : Except PatternFlaw PatternComponent :=
  if cs = ['*', '*'] then .ok directories
  else name <$> Wildcard.readAll cs.length cs

/-- The name, if the component stands for just one. -/
def literal? : PatternComponent → Option String
  | directories => none
  | name ws => String.ofList <$> ws.mapM Wildcard.literal?

/-- The component matches a name. -/
def matchesName : PatternComponent → String → Bool
  | directories, _ => false
  | name ws, s => Wildcard.matchesAll ws s.toList

/-- The component starts with a dot. Only then may it match the names of a directory and of
its parent. -/
def startsWithDot : PatternComponent → Bool
  | name (.char '.' :: _) => true
  | _ => false

end PatternComponent

/-- A pattern for paths. -/
structure Pattern where
  /-- The pattern starts at the top of all files and not at the place it is used in. -/
  fromRoot : Bool
  components : List PatternComponent
  /-- The pattern ends with a slash and selects directories only. -/
  directoriesOnly : Bool
  deriving DecidableEq, Repr

/-- Puts a component in front of others. Any number of directories twice is any number of
directories. -/
def PatternComponent.before (c : PatternComponent) (cs : List PatternComponent) :
    List PatternComponent :=
  if c = directories && cs.head? = some directories then cs else c :: cs

/-- Reads a pattern. The pattern without components has one that is empty. -/
def Pattern.read (text : String) : Except PatternFlaw Pattern := do
  let (fromRoot, cs) := match text.toList with
    | '/' :: cs => (true, cs)
    | cs => (false, cs)
  let pieces := cs.splitOn '/'
  let pieces := if pieces.length > 1 && pieces.getLast? == some [] then pieces.dropLast else pieces
  let components ← pieces.mapM PatternComponent.read
  return { fromRoot, components := components.foldr PatternComponent.before [],
           directoriesOnly := text.toList.getLast? == some '/' }

end WorkflowTree

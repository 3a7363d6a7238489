/-
Backtracking patterns: a sequence of repeated character classes, groups, references to a group, and the end of the text.
A repetition tries its counts in order, the largest first when it is greedy and the smallest first when it is lazy, and
the first count from which the rest of the pattern matches is taken.

- `Pattern.matchAt`, `search`: `re.match` and `re.search`;
- `matchFrom_rep_get`: a group that is one repetition holds characters of its class.
- `matchAt_get_within`: every group holds a part of the text.
-/
import Mathlib.Tactic
import Mathlib.Data.List.TakeWhile

namespace Vault67

/-- one piece of a pattern with groups named by ι -/
inductive Token (ι : Type) where
  /-- at least `least` and at most `most` characters of a class -/
  | rep (allowed : Char → Bool) (least : ℕ) (most : Option ℕ) (greedy : Bool)
  | start (name : ι)
  | stop (name : ι)
  /-- `(?P=name)` -/
  | same (name : ι)
  /-- `$` -/
  | atEnd

/-- the text from where each group was opened, and what each closed group holds, latest first -/
structure Groups (ι : Type) where
  opened : List (ι × List Char)
  closed : List (ι × List Char)

variable {ι : Type} [DecidableEq ι]

namespace Groups

/-- `match.group(name)` -/
def get (g : Groups ι) (name : ι) : Option (List Char) := g.closed.lookup name

def start (g : Groups ι) (name : ι) (cs : List Char) : Groups ι := { g with opened := (name, cs) :: g.opened }

/-- a group holds what was read since it was opened -/
def stop (g : Groups ι) (name : ι) (cs : List Char) : Groups ι :=
  let text := (g.opened.lookup name).getD cs
  { g with closed := (name, text.take (text.length - cs.length)) :: g.closed }

end Groups

namespace Pattern

/-- the counts a repetition tries -/
def counts (allowed : Char → Bool) (least : ℕ) (most : Option ℕ) (greedy : Bool) (cs : List Char) : List ℕ :=
  let longest := (cs.takeWhile allowed).length
  let ns := (List.range (min longest (most.getD longest) + 1)).filter (least ≤ ·)
  if greedy then ns.reverse else ns

/-- the groups of the first match at the start of a text -/
def matchFrom : List (Token ι) → Groups ι → List Char → Option (Groups ι)
  | [], g, _ => some g
  | .rep allowed least most greedy :: ts, g, cs =>
    (counts allowed least most greedy cs).findSome? fun n => matchFrom ts g (cs.drop n)
  | .start name :: ts, g, cs => matchFrom ts (g.start name cs) cs
  | .stop name :: ts, g, cs => matchFrom ts (g.stop name cs) cs
  | .same name :: ts, g, cs =>
    match g.get name with
    | some text => if text <+: cs then matchFrom ts g (cs.drop text.length) else none
    | none => none
  | .atEnd :: ts, g, cs => if cs = [] ∨ cs = ['\n'] then matchFrom ts g cs else none

/-- `pattern.match(text)` -/
def matchAt (ts : List (Token ι)) (cs : List Char) : Option (Groups ι) := matchFrom ts ⟨[], []⟩ cs

/-- `pattern.search(text)` -/
def search (ts : List (Token ι)) (cs : List Char) : Option (Groups ι) := cs.tails.findSome? (matchAt ts)

/-- a group that is not closed again stays -/
theorem matchFrom_get {ts : List (Token ι)} {g g' : Groups ι} {cs : List Char} (h : matchFrom ts g cs = some g')
    {name : ι} (hname : Token.stop name ∉ ts) : g'.get name = g.get name := by
  induction ts generalizing g cs with
  | nil =>
    cases h
    rfl
  | cons t ts ih =>
    rw [List.mem_cons, not_or] at hname
    cases t with
    | rep allowed least most greedy =>
      obtain ⟨n, -, hn⟩ := List.exists_of_findSome?_eq_some h
      exact ih hn hname.2
    | start other =>
      have hrest : matchFrom ts (g.start other cs) cs = some g' := h
      rw [ih hrest hname.2]
      rfl
    | stop other =>
      have hne : (name == other) = false := beq_false_of_ne fun heq => hname.1 (heq ▸ rfl)
      have hrest : matchFrom ts (g.stop other cs) cs = some g' := h
      rw [ih hrest hname.2, Groups.get, Groups.stop, List.lookup_cons, hne]
      rfl
    | same other =>
      simp only [matchFrom] at h
      split at h
      · split_ifs at h
        exact ih h hname.2
      · cases h
    | atEnd =>
      simp only [matchFrom] at h
      split_ifs at h
      exact ih h hname.2

/-- a group that is one repetition holds characters of its class -/
theorem matchFrom_rep_get {ts : List (Token ι)} {g g' : Groups ι} {cs : List Char} {name : ι} {allowed : Char → Bool}
    {least : ℕ} {most : Option ℕ} {greedy : Bool} (hname : Token.stop name ∉ ts)
    (h : matchFrom (.start name :: .rep allowed least most greedy :: .stop name :: ts) g cs = some g') :
    ∃ text, g'.get name = some text ∧ least ≤ text.length ∧ text <+: cs ∧ ∀ c ∈ text, allowed c = true := by
  obtain ⟨n, hn, hrest⟩ := List.exists_of_findSome?_eq_some h
  have hrest : matchFrom ts ((g.start name cs).stop name (cs.drop n)) (cs.drop n) = some g' := hrest
  have hn : least ≤ n ∧ n ≤ (cs.takeWhile allowed).length := by
    unfold counts at hn
    split_ifs at hn <;> simp at hn <;> omega
  have hle : n ≤ cs.length := hn.2.trans (List.takeWhile_prefix _).length_le
  have hget : g'.get name = some (cs.take n) := by
    rw [matchFrom_get hrest hname]
    simp [Groups.get, Groups.stop, Groups.start, Nat.sub_sub_self hle]
  have htake : cs.take n <+: cs.takeWhile allowed :=
    List.prefix_of_prefix_length_le (List.take_prefix n cs) (List.takeWhile_prefix _)
      ((List.length_take_le n cs).trans hn.2)
  refine ⟨cs.take n, hget, ?_, List.take_prefix n cs, ?_⟩
  · rw [List.length_take]
    omega
  · exact fun c hc => List.mem_takeWhile_imp (htake.subset hc)

/-- what has been read of a text: the open groups began in it, the closed ones hold parts of it -/
structure ReadOf (text : List Char) (g : Groups ι) (cs : List Char) : Prop where
  rest : cs <:+ text
  opened : ∀ p ∈ g.opened, p.2 <:+ text
  closed : ∀ p ∈ g.closed, p.2 <:+: text

omit [DecidableEq ι] in
theorem ReadOf.start {text : List Char} {g : Groups ι} {cs : List Char} (h : ReadOf text g cs) (name : ι) :
    ReadOf text (g.start name cs) cs :=
  ⟨h.rest, List.forall_mem_cons.2 ⟨h.rest, h.opened⟩, h.closed⟩

theorem ReadOf.stop {text : List Char} {g : Groups ι} {cs : List Char} (h : ReadOf text g cs) (name : ι) :
    ReadOf text (g.stop name cs) cs := by
  have hopened : (g.opened.lookup name).getD cs <:+ text := by
    cases hfound : g.opened.lookup name with
    | none => exact h.rest
    | some found =>
      obtain ⟨before, after, hsplit, -⟩ := List.lookup_eq_some_iff.1 hfound
      exact h.opened (name, found) (by rw [hsplit]; simp)
  exact ⟨h.rest, h.opened, List.forall_mem_cons.2 ⟨(List.take_prefix _ _).isInfix.trans hopened.isInfix, h.closed⟩⟩

omit [DecidableEq ι] in
theorem ReadOf.drop {text : List Char} {g : Groups ι} {cs : List Char} (h : ReadOf text g cs) (n : ℕ) :
    ReadOf text g (cs.drop n) :=
  ⟨(List.drop_suffix n cs).trans h.rest, h.opened, h.closed⟩

theorem matchFrom_readOf {ts : List (Token ι)} {g g' : Groups ι} {text cs : List Char} (hread : ReadOf text g cs)
    (h : matchFrom ts g cs = some g') : ∀ p ∈ g'.closed, p.2 <:+: text := by
  induction ts generalizing g cs with
  | nil =>
    cases h
    exact hread.closed
  | cons t ts ih =>
    cases t with
    | rep allowed least most greedy =>
      obtain ⟨n, -, hn⟩ := List.exists_of_findSome?_eq_some h
      exact ih (hread.drop n) hn
    | start name => exact ih (hread.start name) h
    | stop name => exact ih (hread.stop name) h
    | same name =>
      simp only [matchFrom] at h
      split at h
      · split_ifs at h
        exact ih (hread.drop _) h
      · cases h
    | atEnd =>
      simp only [matchFrom] at h
      split_ifs at h
      exact ih hread h

/-- a group holds a part of the text -/
theorem matchAt_get_within {ts : List (Token ι)} {g : Groups ι} {cs text : List Char} {name : ι}
    (h : matchAt ts cs = some g) (hget : g.get name = some text) : text <:+: cs := by
  obtain ⟨before, after, hsplit, -⟩ := List.lookup_eq_some_iff.1 hget
  have hstart : ReadOf cs (⟨[], []⟩ : Groups ι) cs := ⟨List.suffix_rfl, by simp, by simp⟩
  exact matchFrom_readOf hstart h (name, text) (by rw [hsplit]; simp)

end Pattern

end Vault67

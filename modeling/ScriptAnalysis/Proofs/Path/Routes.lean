import Mathlib.Data.List.TakeWhile
import ScriptAnalysis.Proofs.Path.Canonical

/-!
# Normalized paths are canonical

A path says how to walk. The walk starts at the root or at a place that is not
known, goes up some levels and then down through names: this is a `Route`, and
`route` is where the segments of a path lead, one after the other. It cuts the
path with `List.splitOnP` and keeps the levels as a number, so it shares nothing
with `locate`, which keeps one stack of names.

**Results.**
* `locate_eq`: the location that is read is the route, with a `..` for each level.
* `normalize_canonical`: two paths have one normal form if and only if they have
  one route, a normal form is its own, and a normalized path is found again from
  its directory and its last name.
-/
namespace ScriptAnalysis.Path

/-! ## Routes -/

/-- From the root or from a place that is not known, `above` levels up and then
down through the names `below`. -/
structure Route where
  absolute : Bool
  above : Nat
  below : List (List Char)
  deriving DecidableEq, Repr

/-- One more segment. An empty one and `.` lead nowhere; `..` takes back the
last name, and where there is none it leads up, but not above the root. -/
def Route.follow (r : Route) (segment : List Char) : Route :=
  if segment = [] ∨ segment = ['.'] then r
  else if segment = ['.', '.'] then
    if r.below ≠ [] then { r with below := r.below.dropLast }
    else if r.absolute = true then r
    else { r with above := r.above + 1 }
  else { r with below := r.below ++ [segment] }

/-- Where a path starts: at the root if a slash or a backslash stands in front. -/
def isAbsolute (path : List Char) : Bool :=
  path.head? == some '/' || path.head? == some '\\'

/-- Where a path leads. -/
def route (path : List Char) : Route :=
  (path.splitOnP fun c => c == '/' || c == '\\').foldl Route.follow ⟨isAbsolute path, 0, []⟩

example : route "/../a/./b/..//c".toList = ⟨true, 0, [['a'], ['c']]⟩ := by decide
example : route "a\\..\\../../b".toList = ⟨false, 2, [['b']]⟩ := by decide

/-! ## Routes and locations -/

/-- A route that goes down through names only, and from the root not up. -/
structure Route.Sound (r : Route) : Prop where
  below : up ∉ r.below
  above : r.absolute = true → r.above = 0

/-- The names of a route, the last one first. -/
def Route.stack (r : Route) : List (List Char) :=
  r.below.reverse ++ List.replicate r.above up

theorem Route.Sound.follow {r : Route} (h : r.Sound) (segment : List Char) :
    (r.follow segment).Sound := by
  unfold Route.follow
  split
  · exact h
  · split
    · split
      · exact ⟨fun hup => h.below (List.dropLast_subset _ hup), h.above⟩
      · split
        · exact h
        · rename_i hrelative
          exact ⟨h.below, fun habsolute => absurd habsolute hrelative⟩
    · rename_i hup
      refine ⟨fun hmem => ?_, h.above⟩
      rcases List.mem_append.1 hmem with hmem | hmem
      · exact h.below hmem
      · exact hup (List.mem_singleton.1 hmem).symm

theorem Route.absolute_follow (r : Route) (segment : List Char) :
    (r.follow segment).absolute = r.absolute := by
  unfold Route.follow
  split_ifs <;> rfl

/-- The step to the directory above, on the stack of names. -/
theorem Route.stack_follow_up {r : Route} (h : r.Sound) :
    (r.follow up).stack = step r.absolute r.stack up := by
  obtain ⟨absolute, above, below⟩ := r
  have hfollow : (Route.mk absolute above below).follow up =
      if below ≠ [] then ⟨absolute, above, below.dropLast⟩
      else if absolute = true then ⟨absolute, above, below⟩
      else ⟨absolute, above + 1, below⟩ := rfl
  rw [hfollow]
  by_cases hbelow : below = []
  · subst hbelow
    cases absolute with
    | true =>
      have hzero : above = 0 := h.above rfl
      subst hzero
      rfl
    | false => cases above <;> rfl
  · obtain ⟨front, last, rfl⟩ := List.eq_nil_or_concat below |>.resolve_left hbelow
    have hlast : last ≠ up := fun hup => h.below (by simp [hup])
    have hstep (names : List (List Char)) : step absolute (last :: names) up =
        if last = up then if absolute then last :: names else up :: last :: names
        else names := rfl
    simp [Route.stack, hstep, hlast]

theorem Route.stack_follow {r : Route} (h : r.Sound) (segment : List Char) :
    (r.follow segment).stack = step r.absolute r.stack segment := by
  by_cases hup : segment = up
  · rw [hup, Route.stack_follow_up h]
  · have hup' : ¬ segment = ['.', '.'] := hup
    unfold Route.follow step
    rw [if_neg hup', if_neg hup']
    split
    · rfl
    · simp [Route.stack]

theorem Route.foldl_follow (segments : List (List Char)) {r : Route} (h : r.Sound) :
    (segments.foldl Route.follow r).Sound ∧
      (segments.foldl Route.follow r).absolute = r.absolute ∧
      (segments.foldl Route.follow r).stack = segments.foldl (step r.absolute) r.stack := by
  induction segments generalizing r with
  | nil => exact ⟨h, rfl, rfl⟩
  | cons segment segments ih =>
    obtain ⟨hsound, habsolute, hstack⟩ := ih (h.follow segment)
    rw [Route.absolute_follow] at habsolute hstack
    rw [Route.stack_follow h] at hstack
    exact ⟨hsound, habsolute, hstack⟩

theorem splitWhere_eq_splitOnP (p : Char → Bool) (cs : List Char) :
    Text.splitWhere p cs = cs.splitOnP p := by
  induction cs with
  | nil => rfl
  | cons c cs ih =>
    rw [List.splitOnP_cons_eq_if_modifyHead, Text.splitWhere, ih]
    split
    · rfl
    · cases hsegments : cs.splitOnP p with
      | nil => exact absurd hsegments (List.splitOnP_ne_nil p cs)
      | cons segment segments => rfl

/-- A route leads up first and down then, and as a location its levels are
written out. -/
theorem locate_eq (path : List Char) : (route path).Sound ∧
    locate path = ⟨(route path).absolute,
      List.replicate (route path).above up ++ (route path).below⟩ := by
  have hstart : (Route.mk (isAbsolute path) 0 []).Sound := ⟨List.not_mem_nil, fun _ => rfl⟩
  obtain ⟨hsound, habsolute, hstack⟩ :=
    Route.foldl_follow (path.splitOnP fun c => c == '/' || c == '\\') hstart
  refine ⟨hsound, ?_⟩
  have hrooted : path.head?.any isSeparator = isAbsolute path := by
    cases path <;> rfl
  have hnames : ((Text.splitWhere isSeparator path).foldl (step (isAbsolute path)) []) =
      (route path).stack := by
    rw [splitWhere_eq_splitOnP]
    exact hstack.symm
  have habsolute' : (route path).absolute = isAbsolute path := habsolute
  unfold locate
  dsimp only
  rw [hrooted, hnames, habsolute', Route.stack, List.reverse_append, List.reverse_replicate,
    List.reverse_reverse]

/-- The levels of a location and its names can be told apart. -/
theorem replicate_up_append_inj {m n : Nat} {a b : List (List Char)} (ha : up ∉ a) (hb : up ∉ b)
    (h : List.replicate m up ++ a = List.replicate n up ++ b) : m = n ∧ a = b := by
  induction m generalizing n with
  | zero =>
    cases n with
    | zero => exact ⟨rfl, h⟩
    | succ n =>
      have hup : up ∈ a := by
        rw [show a = _ from h]
        simp [List.replicate_succ]
      exact absurd hup ha
  | succ m ih =>
    cases n with
    | zero =>
      have hup : up ∈ b := by
        rw [← show _ = b from h]
        simp [List.replicate_succ]
      exact absurd hup hb
    | succ n =>
      rw [List.replicate_succ, List.replicate_succ, List.cons_append, List.cons_append] at h
      obtain ⟨hmn, hab⟩ := ih (List.cons.inj h).2
      exact ⟨congrArg (· + 1) hmn, hab⟩

theorem locate_eq_iff (p q : List Char) : locate p = locate q ↔ route p = route q := by
  obtain ⟨hp, hlocate⟩ := locate_eq p
  obtain ⟨hq, hlocate'⟩ := locate_eq q
  constructor
  · intro h
    rw [hlocate, hlocate', Location.mk.injEq] at h
    obtain ⟨habove, hbelow⟩ := replicate_up_append_inj hp.below hq.below h.2
    cases hroute : route p
    cases hroute' : route q
    rw [hroute, hroute'] at habove hbelow h
    exact Route.mk.injEq .. ▸ ⟨h.1, habove, hbelow⟩
  · intro h
    rw [hlocate, hlocate', h]

/-- Different locations are written differently. -/
theorem normalize_eq_iff (p q : String) :
    normalize p = normalize q ↔ route p.toList = route q.toList := by
  rw [← locate_eq_iff]
  unfold normalize
  constructor
  · intro h
    have hrender := congrArg (fun s => locate s.toList) h
    simpa only [String.toList_ofList, locate_render (locate_proper _)] using hrender
  · intro h
    rw [h]

/-! ## Directory and last name -/

theorem beforeLast?_append {p : Char → Bool} {s : Char} (hs : p s = true) {n : List Char}
    (hn : ∀ c ∈ n, p c = false) (front : List Char) :
    Text.beforeLast? p (front ++ s :: n) = some front := by
  have hdrop : (front ++ s :: n).reverse.dropWhile (fun c => !p c) = s :: front.reverse := by
    rw [List.reverse_append, List.reverse_cons, List.append_assoc,
      List.dropWhile_append_of_pos (by simpa using hn)]
    simp [hs]
  unfold Text.beforeLast?
  rw [hdrop]
  simp

theorem beforeLast?_eq_none {p : Char → Bool} {n : List Char} (hn : ∀ c ∈ n, p c = false) :
    Text.beforeLast? p n = none := by
  have hdrop : n.reverse.dropWhile (fun c => !p c) = [] := by
    rw [List.dropWhile_eq_nil_iff]
    simpa using hn
  unfold Text.beforeLast?
  rw [hdrop]

theorem afterLast_append {p : Char → Bool} {front n : List Char} (hn : ∀ c ∈ n, p c = false)
    (hfront : ∀ c ∈ front.getLast?, p c = true) : Text.afterLast p (front ++ n) = n := by
  unfold Text.afterLast
  rw [List.reverse_append, List.takeWhile_append_of_pos (by simpa using hn)]
  have htake : front.reverse.takeWhile (fun c => !p c) = [] := by
    rcases List.eq_nil_or_concat front with rfl | ⟨front, s, rfl⟩
    · rfl
    · have hs : p s = true := hfront s (by simp)
      simp [hs]
  rw [htake, List.append_nil, List.reverse_reverse]

theorem trimEnd_append {p : Char → Bool} {front n : List Char} (hne : n ≠ [])
    (hn : ∀ c ∈ n, p c = false) : Text.trimEnd p (front ++ n) = front ++ n := by
  obtain ⟨init, c, rfl⟩ := List.eq_nil_or_concat n |>.resolve_left hne
  have hc : p c = false := hn c (by simp)
  simp [Text.trimEnd, hc]

/-- The last name of a path that ends with a name. -/
theorem baseName_append (front : List Char) {n : List Char} (hn : IsName n)
    (hfront : ∀ c ∈ front.getLast?, isSeparator c = true) :
    baseName (String.ofList (front ++ n)) = String.ofList n := by
  unfold baseName
  rw [String.toList_ofList, trimEnd_append hn.1 hn.2.2, afterLast_append hn.2.2 hfront]

theorem IsName.no_slash {n : List Char} (hn : IsName n) : ∀ c ∈ n, (c == '/') = false := by
  intro c hc
  have hsep := hn.2.2 c hc
  simp only [isSeparator, Bool.or_eq_false_iff] at hsep
  exact hsep.1

theorem resolve_name {n : List Char} (hn : IsName n) (file : String) :
    resolve file (String.ofList n) = normalize (directory file ++ "/" ++ String.ofList n) := by
  unfold resolve
  rw [if_neg]
  rw [String.toList_ofList]
  intro hhead
  exact Bool.eq_false_iff.1 (hn.no_slash '/' (List.mem_of_mem_head? hhead)) rfl

/-- A name in a directory is found again. -/
theorem resolve_append {front n : List Char} (hn : IsName n) (hfront : front ≠ []) :
    resolve (String.ofList (front ++ '/' :: n)) (baseName (String.ofList (front ++ '/' :: n))) =
      normalize (String.ofList (front ++ '/' :: n)) := by
  have hbase : baseName (String.ofList (front ++ '/' :: n)) = String.ofList n := by
    have hname := baseName_append (front ++ ['/']) hn (by simp [isSeparator])
    rwa [List.append_assoc, List.singleton_append] at hname
  have hdirectory : directory (String.ofList (front ++ '/' :: n)) = String.ofList front := by
    unfold directory
    rw [String.toList_ofList, beforeLast?_append rfl hn.no_slash]
    cases front with
    | nil => exact absurd rfl hfront
    | cons c front => rfl
  rw [hbase, resolve_name hn, hdirectory]
  refine congrArg normalize (String.toList_inj.1 ?_)
  simp

/-- A name at the root is found again. -/
theorem resolve_root {n : List Char} (hn : IsName n) :
    resolve (String.ofList ('/' :: n)) (baseName (String.ofList ('/' :: n))) =
      normalize (String.ofList ('/' :: n)) := by
  have hbase : baseName (String.ofList ('/' :: n)) = String.ofList n :=
    baseName_append ['/'] hn (by simp [isSeparator])
  have hdirectory : directory (String.ofList ('/' :: n)) = "/" := by
    unfold directory
    rw [String.toList_ofList, show '/' :: n = [] ++ '/' :: n from rfl,
      beforeLast?_append rfl hn.no_slash]
  rw [hbase, resolve_name hn, hdirectory, normalize_eq_iff, ← locate_eq_iff]
  simp [locate, Text.splitWhere, step, isSeparator]

/-- A name of the unknown place is found again. -/
theorem resolve_single {n : List Char} (hn : IsName n) :
    resolve (String.ofList n) (baseName (String.ofList n)) = normalize (String.ofList n) := by
  have hbase : baseName (String.ofList n) = String.ofList n :=
    baseName_append [] hn (by simp)
  have hdirectory : directory (String.ofList n) = "." := by
    unfold directory
    rw [String.toList_ofList, beforeLast?_eq_none hn.no_slash]
  have hhead : n.head?.any isSeparator = false := by
    cases n with
    | nil => rfl
    | cons c n => exact hn.2.2 c List.mem_cons_self
  rw [hbase, resolve_name hn, hdirectory, normalize_eq_iff, ← locate_eq_iff]
  simp [locate, Text.splitWhere, step, isSeparator, hhead]

theorem intercalate_concat {names : List (List Char)} (hne : names ≠ []) (n : List Char) :
    List.intercalate ['/'] (names ++ [n]) = List.intercalate ['/'] names ++ '/' :: n := by
  induction names with
  | nil => exact absurd rfl hne
  | cons m names ih =>
    cases names with
    | nil => simp [List.intercalate_cons_cons]
    | cons m' names =>
      have hrest := ih (by simp)
      rw [List.cons_append] at hrest ⊢
      rw [List.cons_append, List.intercalate_cons_cons, hrest, List.intercalate_cons_cons]
      simp

/-- How a location is written that ends with a name. -/
theorem render_concat (rooted : Bool) {front : List (List Char)} (hfront : ∀ m ∈ front, IsName m)
    {n : List Char} (hn : IsName n) :
    (Location.mk rooted (front ++ [n])).render = '/' :: n ∨
      (Location.mk rooted (front ++ [n])).render = n ∨
      ∃ directory, directory ≠ [] ∧
        (Location.mk rooted (front ++ [n])).render = directory ++ '/' :: n := by
  unfold Location.render
  dsimp only
  by_cases hne : front = []
  · subst hne
    rw [List.nil_append, List.intercalate_singleton]
    cases rooted with
    | true => exact .inl rfl
    | false => exact .inr (.inl (if_neg hn.1))
  · rw [intercalate_concat hne]
    refine .inr (.inr ?_)
    cases rooted with
    | true => exact ⟨'/' :: List.intercalate ['/'] front, List.cons_ne_nil _ _, rfl⟩
    | false => exact ⟨List.intercalate ['/'] front, intercalate_ne_nil hfront hne, by simp⟩

/-- A normalized path is found again from its directory and its last name. -/
theorem resolve_baseName (path : String) :
    resolve (normalize path) (baseName (normalize path)) = normalize path := by
  have hself := normalize_normalize path
  obtain ⟨rooted, names, hlocate⟩ : ∃ rooted names, locate path.toList = ⟨rooted, names⟩ :=
    ⟨_, _, rfl⟩
  have hproper : (Location.mk rooted names).Proper := hlocate ▸ locate_proper path.toList
  have hnormalize : normalize path = String.ofList (Location.mk rooted names).render := by
    rw [← hlocate]
    rfl
  have hnames : ∀ n ∈ names, IsName n := fun n hmem => hproper.1 n (List.mem_reverse.2 hmem)
  rw [hnormalize] at hself ⊢
  rcases List.eq_nil_or_concat names with rfl | ⟨front, n, rfl⟩
  · cases rooted <;> decide
  · have hn : IsName n := hnames n (by simp)
    have hfront : ∀ m ∈ front, IsName m := fun m hmem => hnames m (by simp [hmem])
    refine Eq.trans ?_ hself
    rw [List.concat_eq_append] at *
    rcases render_concat rooted hfront hn with hrender | hrender | ⟨directory, hne, hrender⟩
    · rw [hrender]
      exact resolve_root hn
    · rw [hrender]
      exact resolve_single hn
    · rw [hrender]
      exact resolve_append hn hne

/-- Two paths have one normal form if and only if they lead to one place, from the
root or from the same unknown place. A normal form is its own, and a normalized
path is found again from its directory and its last name. -/
theorem normalize_canonical (p q : String) :
    (normalize p = normalize q ↔ route p.toList = route q.toList) ∧
      normalize (normalize p) = normalize p ∧
      resolve (normalize p) (baseName (normalize p)) = normalize p :=
  ⟨normalize_eq_iff p q, normalize_normalize p, resolve_baseName p⟩

end ScriptAnalysis.Path

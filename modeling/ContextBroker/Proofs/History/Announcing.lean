import ContextBroker.Proofs.History.Queueing

set_option autoImplicit false

/-! # A report comes before what its observers cause

A report is posted, and then its observers are told, one after the other. An observer may do anything
while it is told: it reads and requests contexts, makes reports of its own, whose observers react in
turn. An `Announcing` is a history with its announcements, in which every task that was posted is
marked with the announcement that it was posted amid. Anything can come between two observers, and
who is told of what goes on side by side; what a scenario does is one such run
(`Scenario.exists_announcing`).

The task of a report has its place among all tasks when it is announced, so whatever is posted amid
the announcement comes behind it, however deep announcements are nested (`Announcing.Ordered`). The
worker takes tasks in this order (`History.taken_at`). So what is read amid the announcement, if its
identity was bound, was written by the report or after it. -/

namespace ContextBroker

/-! ## Announcements on their way -/

/-- A report that was announced. -/
structure Announcement where
  notice : Notice
  /-- Those who are to be told, in order. -/
  observers : List Observer
  /-- The announcement amid which an observer made the report. -/
  amid : Option Nat
  /-- How many tasks had been posted before. -/
  place : Nat
  deriving DecidableEq

/-- A task that was posted, and amid which announcement an observer posted it. -/
structure Post where
  task : Task
  amid : Option Nat
  deriving DecidableEq

/-- An observer was told. -/
structure Telling where
  announcement : Nat
  observer : Observer

/-- A history with its announcements. -/
structure Announcing where
  history : History
  /-- The tasks that were posted, in order. -/
  posts : List Post := []
  announcements : List Announcement := []
  told : List Telling := []

namespace Announcing

/-- How announcements and what is around them can go on. -/
inductive Move
  /-- Anything that is done with the broker, be it by an observer amid an announcement. -/
  | go (amid : Option Nat) (move : History.Move)
  /-- The next observer is told of the `n`-th announcement. -/
  | tell (n : Nat)

/-- A new broker, whose allocator handed out `last`. -/
def start (config : Config) (last : Token) : Announcing := { history := .start config last }

/-- Those who were told of the `n`-th announcement, in order. -/
def heard (s : Announcing) (n : Nat) : List Observer :=
  (s.told.filter (·.announcement = n)).map (·.observer)

/-- Whether somebody was told of the `n`-th announcement. -/
def hasTold (s : Announcing) (n : Nat) : Bool := s.told.any (·.announcement = n)

/-- Makes a move of the history, and marks what is posted and announced by it. -/
def go (s : Announcing) (amid : Option Nat) (m : History.Move) : Announcing :=
  let history := s.history.apply m
  let posted := history.broker.queue.tasks.drop s.history.broker.queue.tasks.length
  let announced := history.announced.drop s.history.announced.length
  { s with
    history
    posts := s.posts ++ posted.map (⟨·, amid⟩)
    announcements := s.announcements ++ announced.map fun (notice, observers) =>
      ⟨notice, observers, amid, s.posts.length⟩ }

/-- Tells the next observer of the `n`-th announcement, if one is left. -/
def tell (s : Announcing) (n : Nat) : Announcing :=
  match s.announcements[n]?.bind (·.observers[(s.heard n).length]?) with
  | some observer => { s with told := s.told ++ [⟨n, observer⟩] }
  | none => s

/-- Makes a move. An observer does something amid an announcement only when it was told of it. -/
def apply (s : Announcing) : Move → Announcing
  | .go amid m => if amid.all s.hasTold then s.go amid m else s
  | .tell n => s.tell n

/-- Makes moves, one after the other. -/
def run (s : Announcing) (moves : List Move) : Announcing := moves.foldl apply s

/-- What is done amid the `m`-th announcement is done within the `n`-th: it is the same, or it was
    made by an observer within that. -/
inductive Within (s : Announcing) (n : Nat) : Nat → Prop
  | self : Within s n n
  | nested {m k : Nat} {a : Announcement} (h : Within s n m) (hk : s.announcements[k]? = some a)
      (ha : a.amid = some m) : Within s n k

/-- The task that was posted `k`-th was posted within the `n`-th announcement. -/
def Causes (s : Announcing) (n k : Nat) : Prop :=
  ∃ p m, s.posts[k]? = some p ∧ p.amid = some m ∧ s.Within n m

/-! ## The order of posts -/

/-- All that was posted and announced is marked; an announcement stands where its report was posted,
    and what was posted amid it stands behind. -/
structure Ordered (s : Announcing) : Prop where
  posted : s.posts.map (·.task) = s.history.posted
  announced : s.announcements.map (fun a => (a.notice, a.observers)) = s.history.announced
  place (n : Nat) (a : Announcement) : s.announcements[n]? = some a →
    s.posts[a.place]? = some ⟨.report a.notice.identity a.notice.sample, a.amid⟩
  amid (k : Nat) (p : Post) (n : Nat) : s.posts[k]? = some p → p.amid = some n →
    ∃ a, s.announcements[n]? = some a ∧ a.place < k
  told (x : Telling) : x ∈ s.told → x.announcement < s.announcements.length
  heard (n : Nat) (a : Announcement) : s.announcements[n]? = some a → s.heard n <+: a.observers

variable {s : Announcing}

/-- A move of the history posts something, or posts a report and announces it. -/
theorem go_cases (ht : s.history.Tracked) (amid : Option Nat) (m : History.Move) :
    (∃ more : List Task, (s.go amid m).posts = s.posts ++ more.map (⟨·, amid⟩) ∧
      (s.go amid m).announcements = s.announcements) ∨
    ∃ notice observers,
      (s.go amid m).posts = s.posts ++ [⟨.report notice.identity notice.sample, amid⟩] ∧
      (s.go amid m).announcements =
        s.announcements ++ [⟨notice, observers, amid, s.posts.length⟩] := by
  cases History.goes_apply ht m with
  | quiet more htasks hrounds hannounced =>
    refine .inl ⟨more, ?_, ?_⟩
    · simp only [go, htasks, List.drop_left]
    · simp only [go, hannounced, List.drop_length, List.map_nil, List.append_nil]
  | reported notice observers htasks hrounds hannounced =>
    refine .inr ⟨notice, observers, ?_, ?_⟩
    · simp only [go, htasks, List.drop_left, List.map_cons, List.map_nil]
    · simp only [go, hannounced, List.drop_left, List.map_cons, List.map_nil]
  | worked x htasks hrounds hannounced =>
    refine .inl ⟨[], ?_, ?_⟩
    · have hlength : (s.history.apply m).broker.queue.tasks.length ≤
          s.history.broker.queue.tasks.length := by simp [htasks]
      simp only [go, List.drop_of_length_le hlength]
    · simp only [go, hannounced, List.drop_length, List.map_nil, List.append_nil]

theorem hasTold_iff {n : Nat} : s.hasTold n = true ↔ ∃ x ∈ s.told, x.announcement = n := by
  simp [hasTold]

/-- Nobody was told yet of an announcement that is still to come. -/
theorem heard_eq_nil (h : ∀ x ∈ s.told, x.announcement < s.announcements.length) {n : Nat}
    (hn : s.announcements.length ≤ n) : s.heard n = [] := by
  rw [heard, List.map_eq_nil_iff, List.filter_eq_nil_iff]
  intro x hx
  have hlt := h x hx
  simp only [decide_eq_true_eq]
  omega

namespace Ordered

theorem start (config : Config) (last : Token) : (start config last).Ordered where
  posted := rfl
  announced := rfl
  place n a hn := by simp [Announcing.start] at hn
  amid k p n hk := by simp [Announcing.start] at hk
  told x hx := absurd hx List.not_mem_nil
  heard n a hn := by simp [Announcing.start] at hn

/-- An observer who is told acts amid an announcement that was made. -/
theorem exists_of_hasTold (h : s.Ordered) {n : Nat} (hn : s.hasTold n = true) :
    ∃ a, s.announcements[n]? = some a ∧ a.place < s.posts.length := by
  obtain ⟨x, hx, rfl⟩ := hasTold_iff.1 hn
  obtain ⟨a, ha⟩ : ∃ a, s.announcements[x.announcement]? = some a :=
    ⟨_, List.getElem?_eq_getElem (h.told x hx)⟩
  obtain ⟨hlt, -⟩ := List.getElem?_eq_some_iff.1 (h.place _ a ha)
  exact ⟨a, ha, hlt⟩

/-- What is posted amid an announcement comes behind its report. -/
theorem amid_append (h : s.Ordered) {amid : Option Nat} (hamid : amid.all s.hasTold = true)
    (more : List Task) {k n : Nat} {p : Post}
    (hk : (s.posts ++ more.map (⟨·, amid⟩))[k]? = some p) (hp : p.amid = some n) :
    ∃ a, s.announcements[n]? = some a ∧ a.place < k := by
  rcases Nat.lt_or_ge k s.posts.length with hlt | hge
  · rw [List.getElem?_append_left hlt] at hk
    exact h.amid k p n hk hp
  · rw [List.getElem?_append_right hge, List.getElem?_map, Option.map_eq_some_iff] at hk
    obtain ⟨task, -, rfl⟩ := hk
    obtain rfl : amid = some n := hp
    obtain ⟨a, ha, hplace⟩ := h.exists_of_hasTold (by simpa using hamid)
    exact ⟨a, ha, Nat.lt_of_lt_of_le hplace hge⟩

/-- An announcement keeps its place when more is posted. -/
theorem place_append (h : s.Ordered) {n : Nat} {a : Announcement}
    (hn : s.announcements[n]? = some a) (more : List Post) :
    (s.posts ++ more)[a.place]? =
      some ⟨.report a.notice.identity a.notice.sample, a.amid⟩ := by
  have hplace := h.place n a hn
  obtain ⟨hlt, -⟩ := List.getElem?_eq_some_iff.1 hplace
  rw [List.getElem?_append_left hlt]
  exact hplace

/-- All that is posted is marked. -/
theorem posted_go (h : s.Ordered) (ht : s.history.Tracked) (amid : Option Nat)
    (m : History.Move) : (s.go amid m).posts.map (·.task) = (s.history.apply m).posted := by
  rw [History.posted_apply ht m, ← h.posted]
  simp [Announcing.go, Function.comp_def]

/-- All that is announced is marked. -/
theorem announced_go (h : s.Ordered) (ht : s.history.Tracked) (amid : Option Nat)
    (m : History.Move) : (s.go amid m).announcements.map (fun a => (a.notice, a.observers)) =
      (s.history.apply m).announced := by
  have hprefix : s.history.announced <+: (s.history.apply m).announced := by
    cases History.goes_apply ht m with
    | quiet more htasks hrounds hsame => exact hsame ▸ List.prefix_rfl
    | reported notice observers htasks hrounds hsame => exact hsame ▸ List.prefix_append _ _
    | worked x htasks hrounds hsame => exact hsame ▸ List.prefix_rfl
  obtain ⟨new, hnew⟩ := hprefix
  simp [Announcing.go, ← hnew, h.announced, Function.comp_def]

/-- Whatever is done with the broker keeps the order. -/
theorem go (h : s.Ordered) (ht : s.history.Tracked) {amid : Option Nat}
    (hamid : amid.all s.hasTold = true) (m : History.Move) : (s.go amid m).Ordered := by
  have hposted := h.posted_go ht amid m
  have hannounced := h.announced_go ht amid m
  rcases go_cases ht amid m with ⟨more, hposts, hsame⟩ | ⟨notice, observers, hposts, hmore⟩
  · refine ⟨hposted, hannounced, ?_, ?_, ?_, ?_⟩
    · intro n a hn
      rw [hsame] at hn
      rw [hposts]
      exact h.place_append hn _
    · intro k p n hk hp
      rw [hposts] at hk
      rw [hsame]
      exact h.amid_append hamid more hk hp
    · rw [hsame]
      exact h.told
    · rw [hsame]
      exact h.heard
  · refine ⟨hposted, hannounced, ?_, ?_, ?_, ?_⟩
    · intro n a hn
      rw [hmore] at hn
      rcases getElem?_concat_eq_some hn with hold | ⟨-, rfl⟩
      · rw [hposts]
        exact h.place_append hold _
      · simp [hposts]
    · intro k p n hk hp
      rw [hposts] at hk
      obtain ⟨a, ha, hlt⟩ :=
        h.amid_append hamid [.report notice.identity notice.sample] (k := k) hk hp
      refine ⟨a, ?_, hlt⟩
      obtain ⟨hn, -⟩ := List.getElem?_eq_some_iff.1 ha
      rw [hmore, List.getElem?_append_left hn]
      exact ha
    · intro x hx
      rw [hmore, List.length_append]
      exact Nat.lt_add_right _ (h.told x hx)
    · intro n a hn
      rw [hmore] at hn
      rcases getElem?_concat_eq_some hn with hold | ⟨rfl, rfl⟩
      · exact h.heard n a hold
      · show s.heard _ <+: _
        rw [heard_eq_nil h.told (Nat.le_refl _)]
        exact List.nil_prefix

/-- Telling an observer posts nothing. -/
theorem tell (h : s.Ordered) (n : Nat) : (s.tell n).Ordered := by
  unfold Announcing.tell
  split
  · rename_i observer ho
    obtain ⟨a, ha, ho⟩ := Option.bind_eq_some_iff.1 ho
    refine ⟨h.posted, h.announced, h.place, h.amid, ?_, ?_⟩
    · intro x hx
      rcases List.mem_append.1 hx with hx | hx
      · exact h.told x hx
      · obtain rfl := List.mem_singleton.1 hx
        exact (List.getElem?_eq_some_iff.1 ha).1
    · intro k b hk
      by_cases hkn : n = k
      · subst hkn
        obtain rfl : a = b := Option.some.inj (ha.symm.trans hk)
        obtain ⟨rest, hrest⟩ := h.heard n a ha
        -- The next observer is the first of those who have not heard of it.
        rw [← hrest, List.getElem?_append_right (Nat.le_refl _), Nat.sub_self] at ho
        obtain ⟨rest', rfl⟩ : ∃ rest', rest = observer :: rest' := by
          cases rest with
          | nil => simp at ho
          | cons o rest' => exact ⟨rest', by rw [Option.some.inj ho]⟩
        refine ⟨rest', ?_⟩
        rw [← hrest]
        simp [Announcing.heard]
      · have hsame : Announcing.heard { s with told := s.told ++ [⟨n, observer⟩] } k = s.heard k := by
          simp [Announcing.heard, hkn]
        rw [hsame]
        exact h.heard k b hk
  · exact h

/-- An announcement that is made within another one has its place behind it. -/
theorem place_le (h : s.Ordered) {n m : Nat} (hw : s.Within n m) {a : Announcement}
    (ha : s.announcements[n]? = some a) :
    ∃ b, s.announcements[m]? = some b ∧ a.place ≤ b.place := by
  induction hw with
  | self => exact ⟨a, ha, Nat.le_refl _⟩
  | @nested m k c hw hk hc ih =>
    obtain ⟨b, hb, hle⟩ := ih
    obtain ⟨b', hb', hlt⟩ := h.amid c.place _ m (h.place k c hk) hc
    obtain rfl : b = b' := Option.some.inj (hb.symm.trans hb')
    exact ⟨c, hk, Nat.le_trans hle (Nat.le_of_lt hlt)⟩

/-- What an announcement causes is posted behind its report. -/
theorem place_lt (h : s.Ordered) {n k : Nat} (hc : s.Causes n k) {a : Announcement}
    (ha : s.announcements[n]? = some a) : a.place < k := by
  obtain ⟨p, m, hk, hp, hw⟩ := hc
  obtain ⟨b, hb, hle⟩ := h.place_le hw ha
  obtain ⟨b', hb', hlt⟩ := h.amid k p m hk hp
  obtain rfl : b = b' := Option.some.inj (hb.symm.trans hb')
  exact Nat.lt_of_le_of_lt hle hlt

end Ordered

/-! ## Histories with announcements -/

theorem history_tell (s : Announcing) (n : Nat) : (s.tell n).history = s.history := by
  unfold tell
  split <;> rfl

/-- Without the announcements there is a history left. -/
theorem exists_history_run (config : Config) (last : Token) (moves : List Move) :
    ∃ moves', ((start config last).run moves).history = (History.start config last).run moves' := by
  induction moves using List.reverseRecOn with
  | nil => exact ⟨[], rfl⟩
  | append_singleton moves m ih =>
    obtain ⟨moves', ih⟩ := ih
    rw [run, List.foldl_append]
    show ∃ moves', (((start config last).run moves).apply m).history = _
    cases m with
    | go amid m =>
      simp only [apply]
      split
      · refine ⟨moves' ++ [m], ?_⟩
        rw [History.run, List.foldl_append]
        exact congrArg (History.apply · m) ih
      · exact ⟨moves', ih⟩
    | tell n => exact ⟨moves', (history_tell _ n).trans ih⟩

theorem ordered_run (config : Config) (last : Token) (moves : List Move) :
    ((start config last).run moves).Ordered := by
  induction moves using List.reverseRecOn with
  | nil => exact .start config last
  | append_singleton moves m ih =>
    rw [run, List.foldl_append]
    show (((start config last).run moves).apply m).Ordered
    cases m with
    | go amid m =>
      obtain ⟨moves', hhistory⟩ := exists_history_run config last moves
      have ht : ((start config last).run moves).history.Tracked := by
        rw [hhistory]
        exact History.tracked_run config last moves'
      simp only [apply]
      split
      · exact ih.go ht ‹_› m
      · exact ih
    | tell n => exact ih.tell n

end Announcing

end ContextBroker

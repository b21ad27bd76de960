import Mathlib

/-!
Searches over a graph given by successor lists. The depth-first visit reports every edge back into
the path it is on; without a report the graph has no infinite path. The breadth-first search records
the predecessor of every state it reaches and stops at the first goal; without one no goal is
reachable. Where only one node changes its edges, the cycles that arise go through it.
-/

namespace Search

variable {α ε : Type} [DecidableEq α]

omit [DecidableEq α] in
theorem not_cycle_of_acc {r : α → α → Prop} (h : ∀ a, Acc (fun b a => r a b) a) (a : α) :
    ¬ Relation.TransGen r a a := by
  intro hcycle
  have hwf : WellFounded (Relation.TransGen (Function.swap r)) := WellFounded.transGen ⟨h⟩
  exact hwf.asymmetric a a (Relation.transGen_swap.mpr hcycle) (Relation.transGen_swap.mpr hcycle)

/-! Cycles through one node. -/

def Avoiding (r : α → α → Prop) (x a b : α) : Prop := r a b ∧ a ≠ x ∧ b ≠ x

omit [DecidableEq α] in
theorem transGen_self_iff {r : α → α → Prop} {x : α} : Relation.TransGen r x x ↔
    r x x ∨ ∃ b a, r x b ∧ r a x ∧ b ≠ x ∧ a ≠ x ∧ Relation.ReflTransGen (Avoiding r x) b a := by
  constructor
  · intro hcycle
    -- along the cycle: it has closed, or it is on its way after leaving the node
    have hpath : ∀ c, Relation.TransGen r x c →
        (r x x ∨ ∃ b a, r x b ∧ r a x ∧ b ≠ x ∧ a ≠ x ∧ Relation.ReflTransGen (Avoiding r x) b a) ∨
          c ≠ x ∧ ∃ b, r x b ∧ b ≠ x ∧ Relation.ReflTransGen (Avoiding r x) b c := by
      intro c hc
      induction hc with
      | @single c hedge =>
        by_cases hcx : c = x
        · subst hcx
          exact .inl (.inl hedge)
        · exact .inr ⟨hcx,c,hedge,hcx,.refl⟩
      | @tail c d _ hedge ih =>
        rcases ih with hclosed | ⟨hcx,b,hb,hbx,hway⟩
        · exact .inl hclosed
        · by_cases hdx : d = x
          · subst hdx
            exact .inl (.inr ⟨b,c,hb,hedge,hbx,hcx,hway⟩)
          · exact .inr ⟨hdx,b,hb,hbx,hway.tail ⟨hedge,hcx,hdx⟩⟩
    rcases hpath x hcycle with hclosed | ⟨hne,_⟩
    · exact hclosed
    · exact absurd rfl hne
  · rintro (hloop | ⟨b,a,hout,hback,_,_,hway⟩)
    · exact .single hloop
    · have hsub : ∀ c d, Avoiding r x c d → r c d := fun _ _ h => h.1
      have hpath := Relation.ReflTransGen.mono hsub _ _ hway
      exact Relation.TransGen.tail' (Relation.ReflTransGen.head hout hpath) hback

omit [DecidableEq α] in
theorem cycle_avoids_or_through {r : α → α → Prop} {a : α} (x : α) (h : Relation.TransGen r a a) :
    Relation.TransGen (Avoiding r x) a a ∨ Relation.TransGen r x x := by
  have hpath : ∀ b, Relation.TransGen r a b → Relation.TransGen (Avoiding r x) a b ∨
      Relation.ReflTransGen r a x ∧ Relation.ReflTransGen r x b := by
    intro b hb
    induction hb with
    | @single b hedge =>
      by_cases hax : a = x
      · subst hax
        exact .inr ⟨.refl,.single hedge⟩
      · by_cases hbx : b = x
        · subst hbx
          exact .inr ⟨.single hedge,.refl⟩
        · exact .inl (.single ⟨hedge,hax,hbx⟩)
    | @tail b c hb hedge ih =>
      rcases ih with havoids | ⟨hto,hfrom⟩
      · have hbx : b ≠ x := by
          obtain ⟨_,_,hlast⟩ := Relation.TransGen.tail'_iff.mp havoids
          exact hlast.2.2
        by_cases hcx : c = x
        · subst hcx
          exact .inr ⟨(hb.tail hedge).to_reflTransGen,.refl⟩
        · exact .inl (havoids.tail ⟨hedge,hbx,hcx⟩)
      · exact .inr ⟨hto,hfrom.tail hedge⟩
  rcases hpath a h with havoids | ⟨hto,hfrom⟩
  · exact .inl havoids
  · exact .inr (Relation.TransGen.trans_right hfrom (Relation.TransGen.trans_left h hto))

/-- The marks of a depth-first visit: the nodes on the path, the finished nodes, the reports. -/
structure Marks (α ε : Type) where
  visiting : List α
  visited : List α
  reports : List ε

/-- Visit a node; `path` leads to it and ends with it. -/
def visit (known : α → Bool) (next : α → List α) (report : List α → α → ε) :
    ℕ → α → List α → Marks α ε → Marks α ε
  | 0, _, _, m => m
  | fuel+1, node, path, m =>
    if node ∈ m.visiting then { m with reports := m.reports ++ [report path node] }
    else if node ∈ m.visited ∨ known node = false then m
    else
      let inside := (next node).foldl (fun m a => visit known next report fuel a (path ++ [a]) m)
        { m with visiting := node :: m.visiting }
      { inside with visiting := inside.visiting.erase node, visited := node :: inside.visited }

def visitAll (known : α → Bool) (next : α → List α) (report : List α → α → ε) (nodes : List α) : Marks α ε :=
  nodes.foldl (fun m node => visit known next report (nodes.length+1) node [node] m) ⟨[],[],[]⟩

/-- Finished nodes, the last one first: the known successors of each one were finished before it. -/
def Finished (known : α → Bool) (next : α → List α) : List α → Prop
  | [] => True
  | node :: rest => (∀ a ∈ next node, known a = true → a ∈ rest) ∧ Finished known next rest

omit [DecidableEq α] in
theorem Finished.acc {known : α → Bool} {next : α → List α} {nodes : List α} (h : Finished known next nodes)
    {node : α} (hnode : node ∈ nodes) : Acc (fun b a => b ∈ next a ∧ known b = true) node := by
  induction nodes generalizing node with
  | nil => simp at hnode
  | cons first rest ih =>
    rcases List.mem_cons.mp hnode with rfl | hrest
    · refine Acc.intro _ fun b hb => ?_
      exact ih h.2 (h.1 b hb.1 hb.2)
    · exact ih h.2 hrest

section Visit

variable {known : α → Bool} {next : α → List α} {report : List α → α → ε}

def unvisited (nodes visiting : List α) : ℕ :=
  (nodes.filter fun a => a ∉ visiting).length

theorem unvisited_cons {nodes visiting : List α} {node : α} (hnode : node ∈ nodes) (hnew : node ∉ visiting) :
    unvisited nodes (node :: visiting) < unvisited nodes visiting := by
  have hsplit : (nodes.filter fun a => a ∉ node :: visiting) =
      (nodes.filter fun a => a ∉ visiting).filter fun a => a ≠ node := by
    rw [List.filter_filter]
    refine List.filter_congr fun a _ => ?_
    simp [not_or]
  rw [unvisited,unvisited,hsplit]
  refine List.length_filter_lt_length_iff_exists.mpr ⟨node,?_,by simp⟩
  exact List.mem_filter.mpr ⟨hnode,by simpa using hnew⟩

theorem reports_of_visit {fuel : ℕ} {node : α} {path : List α} {m : Marks α ε}
    (h : (visit known next report fuel node path m).reports = []) : m.reports = [] := by
  induction fuel generalizing node path m with
  | zero => exact h
  | succ fuel ih =>
    have hfold : ∀ (successors : List α) (m : Marks α ε),
        (successors.foldl (fun m a => visit known next report fuel a (path ++ [a]) m) m).reports = [] →
          m.reports = [] := by
      intro successors
      induction successors with
      | nil => exact fun m hm => hm
      | cons a rest ihrest => exact fun m hm => ih (ihrest _ hm)
    unfold visit at h
    split at h
    · simp at h
    · split at h
      · exact h
      · exact hfold (next node) { m with visiting := node :: m.visiting } h

structure Visited (known : α → Bool) (next : α → List α) (node : α) (m m' : Marks α ε) : Prop where
  visiting : m'.visiting = m.visiting
  kept : ∀ a ∈ m.visited, a ∈ m'.visited
  finished : Finished known next m'.visited
  entered : known node = true → node ∈ m'.visited

omit [DecidableEq α] in
theorem visited_foldl (f : α → Marks α ε → Marks α ε) (nodes : List α) {m : Marks α ε}
    (hreports : ∀ a m, (f a m).reports = [] → m.reports = [])
    (hvisit : ∀ a m', m'.visiting = m.visiting → Finished known next m'.visited → (f a m').reports = [] →
      Visited known next a m' (f a m'))
    (hm : Finished known next m.visited) (hclean : (nodes.foldl (fun m a => f a m) m).reports = []) :
    (nodes.foldl (fun m a => f a m) m).visiting = m.visiting ∧
      (∀ a ∈ m.visited, a ∈ (nodes.foldl (fun m a => f a m) m).visited) ∧
      Finished known next (nodes.foldl (fun m a => f a m) m).visited ∧
      ∀ a ∈ nodes, known a = true → a ∈ (nodes.foldl (fun m a => f a m) m).visited := by
  have hclean' : ∀ (nodes : List α) (m : Marks α ε), (nodes.foldl (fun m a => f a m) m).reports = [] →
      m.reports = [] := by
    intro nodes
    induction nodes with
    | nil => exact fun m hm => hm
    | cons a rest ih => exact fun m hm => hreports a m (ih _ hm)
  induction nodes generalizing m with
  | nil => exact ⟨rfl,fun a ha => ha,hm,by simp⟩
  | cons first rest ih =>
    rw [List.foldl_cons] at hclean ⊢
    have hfirst := hvisit first m rfl hm (hclean' rest _ hclean)
    have hrest := ih (fun a m' hm' => hvisit a m' (hm'.trans hfirst.visiting)) hfirst.finished hclean
    refine ⟨hrest.1.trans hfirst.visiting,fun a ha => hrest.2.1 a (hfirst.kept a ha),hrest.2.2.1,?_⟩
    intro a ha hknown
    rcases List.mem_cons.mp ha with rfl | ha
    · exact hrest.2.1 a (hfirst.entered hknown)
    · exact hrest.2.2.2 a ha hknown

theorem visit_spec {nodes : List α} (hnodes : ∀ a, known a = true → a ∈ nodes) {fuel : ℕ} {node : α} {path : List α}
    {m : Marks α ε} (hfuel : unvisited nodes m.visiting < fuel) (hm : Finished known next m.visited)
    (hclean : (visit known next report fuel node path m).reports = []) :
    Visited known next node m (visit known next report fuel node path m) := by
  induction fuel generalizing node path m with
  | zero => omega
  | succ fuel ih =>
    unfold visit at hclean ⊢
    split at hclean
    · simp at hclean
    · rename_i hpath
      rw [if_neg hpath]
      split at hclean
      · rename_i hdone
        rw [if_pos hdone]
        refine ⟨rfl,fun a ha => ha,hm,fun hknown => ?_⟩
        rcases hdone with hvisited | hunknown
        · exact hvisited
        · simp [hknown] at hunknown
      · rename_i hnew
        rw [if_neg hnew]
        rw [not_or,Bool.not_eq_false] at hnew
        have hless := unvisited_cons (hnodes node hnew.2) hpath
        have hstep : ∀ (a : α) (m' : Marks α ε), m'.visiting = node :: m.visiting → Finished known next m'.visited →
            (visit known next report fuel a (path ++ [a]) m').reports = [] →
              Visited known next a m' (visit known next report fuel a (path ++ [a]) m') := by
          intro a m' hvisiting hm' h
          refine ih ?_ hm' h
          rw [hvisiting]
          omega
        obtain ⟨hvisiting,hkept,hfinished,hentered⟩ := visited_foldl
          (fun a m => visit known next report fuel a (path ++ [a]) m) (next node)
          (m := { m with visiting := node :: m.visiting }) (fun a m h => reports_of_visit h) hstep hm hclean
        refine ⟨?_,fun a ha => List.mem_cons_of_mem _ (hkept a ha),⟨hentered,hfinished⟩,
          fun _ => List.mem_cons_self⟩
        simp only [hvisiting,List.erase_cons_head]

theorem acc_of_visitAll {nodes : List α} (hnodes : ∀ a, known a = true → a ∈ nodes)
    (h : (visitAll known next report nodes).reports = []) (node : α) :
    Acc (fun b a => b ∈ next a ∧ known a = true ∧ known b = true) node := by
  have hstep : ∀ (a : α) (m : Marks α ε), m.visiting = [] → Finished known next m.visited →
      (visit known next report (nodes.length+1) a [a] m).reports = [] →
        Visited known next a m (visit known next report (nodes.length+1) a [a] m) := by
    intro a m hvisiting hm hclean
    refine visit_spec hnodes ?_ hm hclean
    rw [hvisiting,unvisited]
    exact Nat.lt_succ_of_le (List.length_filter_le _ _)
  obtain ⟨_,_,hfinished,hentered⟩ := visited_foldl
    (fun a m => visit known next report (nodes.length+1) a [a] m) nodes (m := ⟨[],[],[]⟩)
    (fun a m h => reports_of_visit h) hstep trivial h
  by_cases hknown : known node = true
  · have hacc := hfinished.acc (hentered node (hnodes node hknown) hknown)
    exact Subrelation.accessible (fun hb => ⟨hb.1,hb.2.2⟩) hacc
  · exact Acc.intro _ fun b hb => absurd hb.2.1 hknown

end Visit

/-- Walk up a chain of parents; a node that is met again closes a loop. -/
def findLoop (parent : α → Option α) : ℕ → α → List α → Option (List α)
  | 0, _, _ => none
  | fuel+1, node, path =>
    if node ∈ path then some (path.drop (path.idxOf node))
    else match parent node with
      | none => none
      | some above => findLoop parent fuel above (path ++ [node])

theorem unvisited_append {nodes visiting : List α} {node : α} (hnode : node ∈ nodes) (hnew : node ∉ visiting) :
    unvisited nodes (visiting ++ [node]) < unvisited nodes visiting := by
  have hsame : unvisited nodes (visiting ++ [node]) = unvisited nodes (node :: visiting) := by
    rw [unvisited,unvisited]
    refine congrArg List.length (List.filter_congr fun a _ => ?_)
    simp [or_comm]
  rw [hsame]
  exact unvisited_cons hnode hnew

/-- A walk that finds no loop in as many steps as there are nodes with a parent comes to an end. -/
theorem acc_of_findLoop {parent : α → Option α} {keys : List α} (hkeys : ∀ a, parent a ≠ none → a ∈ keys) {fuel : ℕ}
    {node : α} {path : List α} (hfuel : unvisited keys path < fuel) (h : findLoop parent fuel node path = none) :
    Acc (fun b a => parent a = some b) node := by
  induction fuel generalizing node path with
  | zero => omega
  | succ fuel ih =>
    unfold findLoop at h
    split at h
    · simp at h
    · rename_i hnew
      refine Acc.intro _ fun b hb => ?_
      rw [hb] at h
      have hless := unvisited_append (hkeys node (by simp [hb])) hnew
      exact ih (by omega) h

/-- The states that wait to be expanded, and the predecessor of every state that was reached. -/
structure Frontier (α : Type) where
  queue : List α
  reached : List (α × Option α)

def Frontier.states (f : Frontier α) : List α := f.reached.map Prod.fst

/-- Record the new successors of a state; the first goal among them ends the search. -/
def expand (goal : α → Bool) (state : α) : List α → Frontier α → Option α × Frontier α
  | [], f => (none,f)
  | a :: rest, f =>
    if a ∈ f.states then expand goal state rest f
    else if goal a then (some a,{ f with reached := f.reached ++ [(a,some state)] })
    else expand goal state rest ⟨f.queue ++ [a],f.reached ++ [(a,some state)]⟩

def search (next : α → List α) (goal : α → Bool) : ℕ → Frontier α → Option α × Frontier α
  | 0, f => (none,f)
  | fuel+1, f =>
    match f.queue with
    | [] => (none,f)
    | state :: rest =>
      match expand goal state (next state) { f with queue := rest } with
      | (some a,f) => (some a,f)
      | (none,f) => search next goal fuel f

def breadthFirst (next : α → List α) (goal : α → Bool) (fuel : ℕ) (start : α) : Option α × Frontier α :=
  search next goal fuel ⟨[start],[(start,none)]⟩

def trace (reached : List (α × Option α)) : ℕ → α → List α
  | 0, _ => []
  | fuel+1, state =>
    state :: match (reached.find? fun item => item.1 = state).bind Prod.snd with
      | none => []
      | some previous => trace reached fuel previous

section BreadthFirst

variable {next : α → List α} {goal : α → Bool}

/-- The work that is left: the states still to be reached and those that wait. -/
def work (space : List α) (f : Frontier α) : ℕ :=
  unvisited space f.states + f.queue.length

structure Expanded (goal : α → Bool) (successors : List α) (f f' : Frontier α) : Prop where
  covered : ∀ a ∈ successors, a ∈ f'.states
  kept : ∀ a ∈ f.states, a ∈ f'.states
  queued : ∀ a ∈ f.queue, a ∈ f'.queue
  new : ∀ a ∈ f'.states, a ∈ f.states ∨ goal a = false ∧ a ∈ f'.queue

theorem expand_spec {space : List α} {state : α} {successors : List α} {f f' : Frontier α}
    (hsuccessors : ∀ a ∈ successors, a ∈ space) (h : expand goal state successors f = (none,f')) :
    Expanded goal successors f f' ∧ work space f' ≤ work space f := by
  induction successors generalizing f with
  | nil =>
    obtain rfl : f = f' := congrArg Prod.snd h
    exact ⟨⟨by simp,fun a ha => ha,fun a ha => ha,fun a ha => .inl ha⟩,Nat.le_refl _⟩
  | cons a rest ih =>
    have hrest : ∀ b ∈ rest, b ∈ space := fun b hb => hsuccessors b (List.mem_cons_of_mem _ hb)
    unfold expand at h
    split at h
    · rename_i hknown
      obtain ⟨hexpanded,hwork⟩ := ih hrest h
      refine ⟨⟨fun b hb => ?_,hexpanded.kept,hexpanded.queued,hexpanded.new⟩,hwork⟩
      rcases List.mem_cons.mp hb with rfl | hb
      · exact hexpanded.kept b hknown
      · exact hexpanded.covered b hb
    · rename_i hnew
      split at h
      · simp at h
      · rename_i hgoal
        obtain ⟨hexpanded,hwork⟩ := ih hrest h
        have hstates : (Frontier.mk (f.queue ++ [a]) (f.reached ++ [(a,some state)])).states = f.states ++ [a] := by
          simp [Frontier.states]
        have hless := unvisited_append (hsuccessors a List.mem_cons_self) hnew
        refine ⟨⟨fun b hb => ?_,fun b hb => ?_,fun b hb => ?_,fun b hb => ?_⟩,?_⟩
        · rcases List.mem_cons.mp hb with rfl | hb
          · exact hexpanded.kept b (by simp [hstates])
          · exact hexpanded.covered b hb
        · exact hexpanded.kept b (by simp [hstates,hb])
        · exact hexpanded.queued b (by simp [hb])
        · rcases hexpanded.new b hb with hold | hqueued
          · rw [hstates,List.mem_append,List.mem_singleton] at hold
            rcases hold with hold | rfl
            · exact .inl hold
            · exact .inr ⟨by simpa using hgoal,hexpanded.queued b (by simp)⟩
          · exact .inr hqueued
        · have hgrown : work space ⟨f.queue ++ [a],f.reached ++ [(a,some state)]⟩ =
              unvisited space (f.states ++ [a]) + (f.queue.length+1) := by
            rw [work,hstates,List.length_append,List.length_singleton]
          have hbefore : work space f = unvisited space f.states + f.queue.length := rfl
          omega

/-- The states whose successors were all reached are the ones that no longer wait, and none of the
states reached after the first is a goal. -/
structure Explored (next : α → List α) (goal : α → Bool) (start : α) (f : Frontier α) : Prop where
  root : start ∈ f.states
  closed : ∀ a ∈ f.states, a ∈ f.queue ∨ ∀ b ∈ next a, b ∈ f.states
  goals : ∀ a ∈ f.states, a = start ∨ goal a = false

theorem search_spec {space : List α} (hspace : ∀ a, ∀ b ∈ next a, b ∈ space) {start : α} {fuel : ℕ}
    {f f' : Frontier α} (hfuel : work space f < fuel) (hf : Explored next goal start f)
    (h : search next goal fuel f = (none,f')) : Explored next goal start f' ∧ f'.queue = [] := by
  induction fuel generalizing f with
  | zero => omega
  | succ fuel ih =>
    unfold search at h
    split at h
    · rename_i hempty
      obtain rfl : f = f' := congrArg Prod.snd h
      exact ⟨hf,hempty⟩
    · rename_i state rest hqueue
      split at h
      · simp at h
      · rename_i mid hmid
        obtain ⟨hexpanded,hwork⟩ := expand_spec (hspace state) hmid
        refine ih ?_ ?_ h
        · have hbefore : work space f = work space ⟨rest,f.reached⟩+1 := by
            rw [work,work,hqueue,List.length_cons,Nat.add_assoc]
            rfl
          have hafter : work space mid ≤ work space ⟨rest,f.reached⟩ := hwork
          omega
        · refine ⟨hexpanded.kept start hf.root,fun a ha => ?_,fun a ha => ?_⟩
          · rcases hexpanded.new a ha with hold | ⟨_,hqueued⟩
            · rcases hf.closed a hold with hwaits | hdone
              · rw [hqueue] at hwaits
                rcases List.mem_cons.mp hwaits with rfl | hwaits
                · exact .inr hexpanded.covered
                · exact .inl (hexpanded.queued a hwaits)
              · exact .inr fun b hb => hexpanded.kept b (hdone b hb)
            · exact .inl hqueued
          · rcases hexpanded.new a ha with hold | ⟨hgoal,_⟩
            · exact hf.goals a hold
            · exact .inr hgoal

theorem not_goal_of_breadthFirst {space : List α} (hspace : ∀ a, ∀ b ∈ next a, b ∈ space) {start : α}
    {fuel : ℕ} (hfuel : space.length+1 < fuel) (h : (breadthFirst next goal fuel start).1 = none) {a : α}
    (ha : Relation.ReflTransGen (fun a b => b ∈ next a) start a) : a = start ∨ goal a = false := by
  have hstart : Explored next goal start ⟨[start],[(start,none)]⟩ :=
    ⟨by simp [Frontier.states],fun a ha => .inl (by simpa [Frontier.states] using ha),
      fun a ha => .inl (by simpa [Frontier.states] using ha)⟩
  have hless : work space ⟨[start],[(start,none)]⟩ < fuel := by
    have hle : unvisited space (Frontier.mk [start] [(start,none)]).states ≤ space.length :=
      List.length_filter_le _ _
    rw [work,List.length_singleton]
    omega
  have hsearch : search next goal fuel ⟨[start],[(start,none)]⟩ =
      (none,(breadthFirst next goal fuel start).2) := Prod.ext h rfl
  obtain ⟨hexplored,hempty⟩ := search_spec hspace hless hstart hsearch
  refine hexplored.goals a ?_
  induction ha with
  | refl => exact hexplored.root
  | tail _ hedge ih =>
    rcases hexplored.closed _ ih with hwaits | hdone
    · simp [hempty] at hwaits
    · exact hdone _ hedge

end BreadthFirst

end Search

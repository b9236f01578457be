import SyntaxGraph.Proofs.Assembly
import SyntaxGraph.Proofs.Runs

/-!
# Segments run along a route

The variables that give sizes are read after all segments of a binary stand, each at the
address of its segment. A read must not be noted twice, so this module follows the
segments with one more fact than other parts: no stretch that builds a segment reads at
the segment's own address, only further down.
-/

namespace SyntaxGraph

/-- A stretch that builds subtrees and does not read at their roots. -/
def BuiltUnread (limits : Limits) (roots : List Address) (s t : Session) : Prop :=
  ∃ gain, Route limits roots gain s t ∧
    ∀ m ∈ gain.moments, ∀ root ∈ roots, m.reference? ≠ some root

namespace BuiltUnread

variable {limits : Limits} {xs ys : List Address} {s t u : Session}

theorem done (s : Session) : BuiltUnread limits [] s s :=
  ⟨∅, .done s, fun _ member => (nomatch member)⟩

theorem next (first : BuiltUnread limits xs s t) (second : BuiltUnread limits ys t u)
    (apart : ∀ x ∈ xs, ∀ y ∈ ys, x.Apart y) : BuiltUnread limits (xs ++ ys) s u := by
  obtain ⟨g, first, unread⟩ := first
  obtain ⟨k, second, unread'⟩ := second
  refine ⟨g ++ k, .next first second apart, ?_⟩
  intro m member root hroot reads
  rcases List.mem_append.mp member with earlier | later
  · rcases List.mem_append.mp hroot with here | there
    · exact unread m earlier root here reads
    · obtain ⟨x, hx, within⟩ := first.course.reference_isWithin earlier reads
      exact (apart x hx root there).ne_of_isWithin within (Address.isWithin_self root) rfl
  · rcases List.mem_append.mp hroot with here | there
    · obtain ⟨y, hy, within⟩ := second.course.reference_isWithin later reads
      exact (apart root here y hy).ne_of_isWithin (Address.isWithin_self root) within rfl
    · exact unread' m later root there reads

/-- A node whose parts are built reads only below its address. -/
theorem ofParts {node : Node} (slots : List Slot)
    (built : Built limits (slots.map node.address.at) s t) (holds : node.Holds slots) :
    BuiltUnread limits [node.address] s (t.emit node) := by
  obtain ⟨g, route⟩ := built
  refine ⟨_, .node route holds, ?_⟩
  intro m member root hroot reads
  obtain rfl := List.mem_singleton.mp hroot
  rw [Gain.append_moments, show (Gain.ofNode _).moments = [] from rfl, List.append_nil] at member
  obtain ⟨x, hx, within⟩ := route.course.reference_isWithin member reads
  obtain ⟨slot, -, rfl⟩ := List.mem_map.mp hx
  exact Bool.false_ne_true ((Address.not_isWithin_at _ slot).symm.trans within)

/-- Roots that nothing has read yet may be read, each once. -/
theorem readAll (built : BuiltUnread limits xs s t) (reads : List (String × Address))
    (position : Option Position) (present : ∀ read ∈ reads, read.2 ∈ xs)
    (once : (reads.map (·.2)).Nodup) :
    Built limits xs s
      (reads.foldl (fun s read => s.readSymbol read.1 read.2 position) t) := by
  obtain ⟨g, route, unread⟩ := built
  replace unread : ∀ m ∈ g.moments, ∀ read ∈ reads, m.reference? ≠ some read.2 :=
    fun m member read hread => unread m member read.2 (present read hread)
  induction reads generalizing t g with
  | nil => exact ⟨g, route⟩
  | cons read reads ih =>
      obtain ⟨new, rest⟩ := List.nodup_cons.mp once
      have grown : Route limits xs _ s (t.readSymbol read.1 read.2 position) := route.size
        (present read List.mem_cons_self) fun m member => unread m member read List.mem_cons_self
      refine ih (fun other member => present other (List.mem_cons_of_mem _ member)) rest _ grown ?_
      intro m member other hother
      rcases List.mem_append.mp member with earlier | last
      · exact unread m earlier other (List.mem_cons_of_mem _ hother)
      · obtain rfl := List.mem_singleton.mp last
        intro same
        exact new (List.mem_map.mpr ⟨other, hother, (Option.some.inj same).symm⟩)

end BuiltUnread

namespace Segment

open Build

variable {limits : Limits} {s t : Session} {β : Type}

/-- A word of a specification sets properties only. -/
theorem readWord_node (r : Reading) (word : Source) :
    (readWord r word).node.address = r.node.address ∧
      (readWord r word).node.relations = r.node.relations := by
  unfold readWord
  split <;> exact ⟨rfl, rfl⟩

/-- Reading a specification leaves the session as it is and sets properties only. -/
theorem yields_readPending {site : Address} {pending : List (Source × Nat)} {r result : Reading}
    (h : (readPending site pending r).Yields limits s result t) :
    s = t ∧ result.node.address = r.node.address ∧ result.node.relations = r.node.relations := by
  fun_induction readPending site pending r with
  | case1 r =>
      obtain ⟨rfl, rfl⟩ := yields_pure h
      exact ⟨rfl, rfl, rfl⟩
  | case2 r => exact absurd h not_yields_tooDeep
  | case3 r note left right room rest ih => exact ih h
  | case4 r word room rest split ih =>
      obtain ⟨same, address, relations⟩ := ih h
      have kept := readWord_node r word
      exact ⟨same, address.trans kept.1, relations.trans kept.2⟩

/-- What is asked of the builder of a segment's value: it runs along a route and keeps an
invariant of the value handed on, which other nodes do not disturb. -/
structure Builds (limits : Limits) (build : Address → Source → β → Build β)
    (invariant : Session → β → Prop) : Prop where
  step : ∀ {address source s value t value'}, invariant s value →
    (build address source value).Yields limits s value' t →
    Built limits [address] s t ∧ invariant t value'
  emit : ∀ {s value} (node : Node), invariant s value → invariant (s.emit node) value

variable {build : Address → Source → β → Build β} {invariant : Session → β → Prop}

theorem step_built (builds : Builds limits build invariant) {room : Nat} {site : Address}
    {segment : Source} {state result : β × List (String × Address)}
    (start : invariant s state.1)
    (h : (step room build site segment state).Yields limits s result t) :
    BuiltUnread limits [site] s t ∧ invariant t result.1 ∧
      ∃ new, result.2 = state.2 ++ new ∧ (new.map (·.2)).Sublist [site] := by
  obtain ⟨value, u, reading, w, inner, read, rfl, rfl⟩ := yields_step h
  obtain ⟨rfl, address, relations⟩ := yields_readPending read
  obtain ⟨built, kept⟩ := builds.step start inner
  have fresh : (((Node.make site .binarySegment).relate .value
      (site.child Role.value.label)).withPosition segment.position).Holds [(.value, none)] :=
    ((Node.Holds.make site .binarySegment).relate (.value, none) (by decide)
      (fun _ member => (nomatch member)) (.inr fun _ member => (nomatch member))).withPosition _
  have holds := fresh.congr address relations
  have here : reading.node.address = site := by simpa using address
  subst here
  refine ⟨.ofParts [(.value, none)] built holds, builds.emit _ kept, _, rfl, ?_⟩
  cases reading.sizeName <;> simp

/-- The segments of a binary are built one after the other; the sizes handed back lie at
different segments. -/
theorem foldParts_built (builds : Builds limits build invariant) {room index : Nat}
    {site : Address} {segments : List Source} {state : β × List (String × Address)}
    {found : List Address × β × List (String × Address)} (start : invariant s state.1)
    (h : (foldParts site .segment (step room build) index segments state).Yields limits s found t) :
    found.1 = (Slot.numbered .segment index segments.length).map site.at ∧
      BuiltUnread limits found.1 s t ∧ invariant t found.2.1 ∧
      ∃ new, found.2.2 = state.2 ++ new ∧ (new.map (·.2)).Sublist found.1 := by
  induction segments generalizing index state s found with
  | nil =>
      obtain ⟨rfl, rfl⟩ := yields_foldParts_nil h
      exact ⟨rfl, .done s, start, [], by simp, List.Sublist.refl _⟩
  | cons segment segments ih =>
      obtain ⟨middle, addresses, u, first, others, addressed⟩ := yields_foldParts_cons h
      obtain ⟨built, kept, new, grown, sub⟩ := step_built builds start first
      obtain ⟨same, built', kept', new', grown', sub'⟩ := ih kept others
      rw [addressed, List.length_cons, Slot.numbered_succ, List.map_cons]
      refine ⟨by rw [← same]; rfl, built.next built' ?_, kept', new ++ new', ?_, ?_⟩
      · intro x hx y hy
        rw [List.mem_singleton.mp hx]
        replace hy : y ∈ (Slot.numbered .segment (index + 1) segments.length).map site.at := same ▸ hy
        obtain ⟨slot, member, rfl⟩ := List.mem_map.mp hy
        obtain ⟨position, low, -, rfl⟩ := Slot.mem_numbered.mp member
        exact site.at_apart (p := (.segment, some index))
          (.inr ⟨index, position, rfl, rfl, by omega⟩)
      · rw [grown', grown, List.append_assoc]
      · rw [List.map_append]
        exact sub.append sub'

/-- A binary whose sizes are read, or some of them, gets its segments. -/
theorem buildAll_assembly (builds : Builds limits build invariant) {room : Nat} {node : Node}
    {segments : List Source} {value : β} {result : Node × β × List (String × Address)}
    (start : invariant s value)
    (h : (buildAll room build node segments value).Yields limits s result t) :
    invariant t result.2.1 ∧ ∀ position keep,
      Assembly limits [.segment] node s result.1
        ((result.2.2.filter keep).foldl (fun s read => s.readSymbol read.1 read.2 position) t) := by
  obtain ⟨addresses, final, -, inner, rfl⟩ := yields_buildAll h
  obtain ⟨same, built, kept, new, sizes, sub⟩ := foldParts_built builds start inner
  dsimp only at same built kept sizes sub ⊢
  refine ⟨kept, fun position keep => ?_⟩
  have distinct : addresses.Nodup := by
    rw [same]
    refine List.Pairwise.map _ ?_ (Slot.numbered_apart .segment 0 segments.length)
    intro p q apart equal
    have apart := node.address.at_apart apart
    rw [equal] at apart
    exact apart.ne_of_isWithin (Address.isWithin_self _) (Address.isWithin_self _) rfl
  have sub : ((final.2.filter keep).map (·.2)).Sublist addresses := by
    rw [sizes]
    exact (List.filter_sublist.map _).trans sub
  have whole := built.readAll (final.2.filter keep) position
    (fun read member => sub.subset (List.mem_map.mpr ⟨read, member, rfl⟩)) (sub.nodup distinct)
  rw [same] at whole
  have assembly := Assembly.numbered .segment (by decide) (by decide) whole
  rw [← same] at assembly
  exact assembly

end Segment

end SyntaxGraph

import Stoa.Model.Subscription
import Stoa.Store.Runs

/-! # Handlers of which nothing is asked

Whatever a handler answers, its commits are those that its caller allows. -/

namespace Stoa.Subscription

open RowStore

variable {F : Faults} {I : Interference Key Row} {own : List (Table Key Row × Table Key Row)}
  {t : Table Key Row} {G : Table Key Row → Table Key Row → Prop}

abbrev Quiet (α : Type) : Post Key Row α := fun _ _ _ => True

theorem bind_quiet {α β : Type} {x : Handler α} {f : α → Handler β}
    (hx : x.run.Safe F I G (Quiet _) own t)
    (h : ∀ a own u, (f a).run.Safe F I G (Quiet _) own u) :
    (x >>= f).run.Safe F I G (Quiet _) own t := by
  refine RowStore.Handler.safe_bind.mpr (hx.mono (fun _ _ _ hg => hg) fun r own u _ => ?_)
  cases r with
  | ok a => exact h a own u
  | error e => trivial

theorem get_quiet {α : Type} {k : Key} {f : Option (Row k) → Handler α}
    (h : ∀ u, I.Rely t u → (f (u.row k)).run.Safe F I G (Quiet _) own u) :
    (get k >>= f).run.Safe F I G (Quiet _) own t :=
  RowStore.Handler.safe_get_bind fun u hr _ => ⟨h u hr, trivial⟩

theorem of_quiet {α β : Type} {x : Except Raised α} {f : α → Handler β}
    (h : ∀ a, x = .ok a → (f a).run.Safe F I G (Quiet _) own t) :
    (RowStore.Handler.of x >>= f).run.Safe F I G (Quiet _) own t :=
  RowStore.Handler.safe_of_bind h fun _ _ => trivial

theorem transactWrite_quiet {α : Type} {ops : List (Write Key Row)} {cancelled : Bool}
    {detail : String} {f : Unit → Handler α}
    (hmove : ∀ u, I.Rely t u → u.Admits ops → G u (u.apply ops))
    (h : ∀ own u, (f ()).run.Safe F I G (Quiet _) own u) :
    (transactWrite ops cancelled detail >>= f).run.Safe F I G (Quiet _) own t := by
  refine RowStore.Handler.safe_bind.mpr (RowStore.Handler.safe_submit_bind ?_ ?_)
  · exact fun _ _ _ => trivial
  · exact fun u hr _ ha => ⟨hmove u hr ha, h _ _, trivial⟩

theorem requireParent_quiet {α : Type} {parent : String} {f : ProfileRow → Handler α}
    (h : ∀ profile u, I.Rely t u → (f profile).run.Safe F I G (Quiet _) own u) :
    (requireParent parent >>= f).run.Safe F I G (Quiet _) own t := by
  refine RowStore.Handler.safe_bind.mpr (RowStore.Handler.safe_get_bind fun u hr _ => ⟨?_, trivial⟩)
  split
  · split
    · exact h _ u hr
    · trivial
  · trivial

theorem putItem_quiet {k : Key} {item : Row k}
    (hmove : ∀ u, G u (u.apply [.put k item fun _ => true])) :
    (putItem k item).run.Safe F I G (Quiet _) own t := by
  refine RowStore.Handler.safe_submit_bind ?_ ?_
  · exact fun _ _ _ => trivial
  · exact fun u _ _ _ => ⟨hmove u, trivial, trivial⟩

theorem versionedProfileOperations_quiet {α : Type} {user tier : String} {profile : ProfileRow}
    {f : List (Write Key Row) → Handler α}
    (h : ∀ ops u, I.Rely t u →
      (∀ w ∈ ops, w.key = .accountFence user ∨ w.key = .profile user) → (f ops).run.Safe F I G (Quiet _) own u) :
    (versionedProfileOperations user profile tier >>= f).run.Safe F I G (Quiet _) own t := by
  refine RowStore.Handler.safe_bind.mpr (RowStore.Handler.safe_get_bind fun u hr _ => ⟨?_, trivial⟩)
  split
  · trivial
  · split
    · trivial
    · refine h _ u hr fun w hw => ?_
      rcases List.mem_pair.mp hw with rfl | rfl
      · exact .inl rfl
      · exact .inr rfl

end Stoa.Subscription

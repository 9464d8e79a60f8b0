import Stoa.Store.Handler

/-! # Programs of which only the commits matter

Whatever it answers, every commit of a quiet program is in the guarantee. Where
the guarantee is inside the rely, what was read before such a program may still
be relied on after it. -/

namespace RowStore

variable {K : Type} {V : K → Type} {ε α β : Type} [DecidableEq K]

/-- Safe from here on, where nothing but the rely is owed at the end. -/
def Program.Quiet (F : Faults) (I : Interference K V) (G : Table K V → Table K V → Prop)
    (p : Program K V α) (t : Table K V) : Prop :=
  ∀ own, p.Safe F I G (fun _ _ u => I.Rely t u) own t

variable {F : Faults} {I : Interference K V} {G : Table K V → Table K V → Prop} {t : Table K V}

namespace Program

/-- Every table a safe program commits or returns on comes after `s`. -/
theorem Safe.since {Q : Post K V α} {p : Program K V α} {s : Table K V}
    (hG : ∀ u u', I.Rely s u → I.Inv u → G u u' → I.Rely u u') {own : List (Table K V × Table K V)}
    (h : p.Safe F I G Q own t) (hs : I.Rely s t) :
    p.Safe F I (fun u u' => I.Rely s u ∧ G u u') (fun a own u => Q a own u ∧ I.Rely s u) own t := by
  induction p generalizing own t with
  | ret a => exact ⟨h, hs⟩
  | read k next ih =>
      intro v hr hi
      exact ⟨ih _ (h v hr hi).1 (I.trans hs hr), fun hf => ih _ ((h v hr hi).2 hf) (I.trans hs hr)⟩
  | query select next ih =>
      intro v hr hi
      exact ⟨fun rows ha => ih _ ((h v hr hi).1 rows ha) (I.trans hs hr),
        fun hf => ih _ ((h v hr hi).2 hf) (I.trans hs hr)⟩
  | transact ops next ih =>
      intro v hr hi
      have hv := I.trans hs hr
      refine ⟨fun hn => ih _ ((h v hr hi).1 hn) hv, fun ha => ?_⟩
      obtain ⟨hg, hok, hlost⟩ := (h v hr hi).2 ha
      have hrely := I.trans hv (hG _ _ hv hi hg)
      exact ⟨⟨hv, hg⟩, ih _ hok hrely, fun hf => ih _ (hlost hf) hrely⟩

/-- A program that is safe on its own is quiet after any commits. -/
theorem Safe.toQuiet {G' : Table K V → Table K V → Prop} {Q : Post K V α} {p : Program K V α}
    (hG : ∀ u u', I.Rely t u → I.Inv u → G u u' → G' u u')
    (hrely : ∀ u u', I.Inv u → G' u u' → I.Rely u u') (h : p.Safe F I G Q [] t) : p.Quiet F I G' t := by
  intro own
  have hsince := h.since (s := t) (fun u u' hr hi hg => hrely u u' hi (hG u u' hr hi hg)) (I.refl t)
  have hframe := hsince.frame own
  rw [List.nil_append] at hframe
  exact hframe.mono (fun u u' hi hg => hG u u' hg.1 hi hg.2) fun a all u ⟨_, _, _, hr⟩ => hr

theorem Quiet.mono {G' : Table K V → Table K V → Prop} {p : Program K V α} (h : p.Quiet F I G t)
    (hG : ∀ t t', I.Inv t → G t t' → G' t t') : p.Quiet F I G' t :=
  fun own => (h own).mono hG fun _ _ _ hr => hr

theorem quiet_ret {a : α} : (ret a).Quiet F I G t := fun _ => I.refl t

theorem Quiet.bind {p : Program K V α} {f : α → Program K V β} (hp : p.Quiet F I G t)
    (hf : ∀ a u, I.Rely t u → (f a).Quiet F I G u) : (p.bind f).Quiet F I G t := by
  intro own
  refine (safe_bind p f own t).mpr ((hp own).mono (fun _ _ _ hg => hg) fun a own u hr => ?_)
  exact (hf a u hr own).mono (fun _ _ _ hg => hg) fun _ _ v hv => I.trans hr hv

theorem quiet_read {k : K} {next : Option (Option (V k)) → Program K V α}
    (h : ∀ u, I.Rely t u → I.Inv u → (next (some (u.row k))).Quiet F I G u)
    (hraises : ∀ u, I.Rely t u → (next none).Quiet F I G u) : (read k next).Quiet F I G t := by
  intro own u hr hi
  have htrans : ∀ {p : Program K V α}, p.Quiet F I G u →
      p.Safe F I G (fun _ _ v => I.Rely t v) own u :=
    fun hp => (hp own).mono (fun _ _ _ hg => hg) fun _ _ v hv => I.trans hr hv
  exact ⟨htrans (h u hr hi), fun _ => htrans (hraises u hr)⟩

theorem quiet_query {select : K → Bool}
    {next : Option (List ((k : K) × V k)) → Program K V α}
    (h : ∀ u rows, I.Rely t u → I.Inv u → u.Answers select rows → (next (some rows)).Quiet F I G u)
    (hraises : ∀ u, I.Rely t u → (next none).Quiet F I G u) : (query select next).Quiet F I G t := by
  intro own u hr hi
  have htrans : ∀ {p : Program K V α}, p.Quiet F I G u →
      p.Safe F I G (fun _ _ v => I.Rely t v) own u :=
    fun hp => (hp own).mono (fun _ _ _ hg => hg) fun _ _ v hv => I.trans hr hv
  exact ⟨fun rows ha => htrans (h u rows hr hi ha), fun _ => htrans (hraises u hr)⟩

theorem quiet_transact {ops : List (Write K V)} {next : Bool → Program K V α}
    (hG : ∀ t t', I.Inv t → G t t' → I.Rely t t')
    (hmove : ∀ u, I.Rely t u → I.Inv u → u.Admits ops → G u (u.apply ops))
    (h : ∀ done u, I.Rely t u → (next done).Quiet F I G u) : (transact ops next).Quiet F I G t := by
  intro own u hr hi
  have htrans : ∀ {p : Program K V α} {v own}, I.Rely t v → p.Quiet F I G v →
      p.Safe F I G (fun _ _ w => I.Rely t w) own v :=
    fun hv hp => (hp _).mono (fun _ _ _ hg => hg) fun _ _ w hw => I.trans hv hw
  refine ⟨fun _ => htrans hr (h false u hr), fun ha => ?_⟩
  have hg := hmove u hr hi ha
  have hrely := I.trans hr (hG _ _ hi hg)
  exact ⟨hg, htrans hrely (h true _ hrely), fun _ => htrans hrely (h false _ hrely)⟩

theorem ReadOnly.quiet {p : Program K V α} (h : p.ReadOnly) : p.Quiet F I G t :=
  fun _ => h.safe_of fun _ _ hr => hr

theorem Quiet.retry {attempt : Program K V (Option α)} {exhausted : α}
    (h : ∀ u, I.Rely t u → attempt.Quiet F I G u) :
    ∀ n u, I.Rely t u → (Program.retry attempt exhausted n).Quiet F I G u := by
  intro n
  induction n with
  | zero => exact fun _ _ => quiet_ret
  | succ n ih =>
      intro u hu
      refine (h u hu).bind fun a v hv => ?_
      cases a with
      | some a => exact quiet_ret
      | none => exact ih v (I.trans hu hv)

end Program

/-! ## Handlers -/

namespace Handler

theorem quiet_bind {x : Handler K V ε α} {f : α → Handler K V ε β} (hx : x.run.Quiet F I G t)
    (hf : ∀ a u, I.Rely t u → (f a).run.Quiet F I G u) : (x >>= f).run.Quiet F I G t := by
  refine Program.Quiet.bind hx fun r u hr => ?_
  cases r with
  | ok a => exact hf a u hr
  | error e => exact Program.quiet_ret

theorem quiet_readOnly_bind {x : Handler K V ε α} {f : α → Handler K V ε β} (hx : x.run.ReadOnly)
    (hf : ∀ a u, I.Rely t u → (f a).run.Quiet F I G u) : (x >>= f).run.Quiet F I G t :=
  quiet_bind hx.quiet hf

theorem quiet_get_bind {e : ε} {k : K} {f : Option (V k) → Handler K V ε β}
    (h : ∀ u, I.Rely t u → I.Inv u → (f (u.row k)).run.Quiet F I G u) :
    (get e k >>= f).run.Quiet F I G t :=
  Program.quiet_read h fun _ _ => Program.quiet_ret

theorem quiet_list_bind {e : ε} {select : K → Bool} {f : List ((k : K) × V k) → Handler K V ε β}
    (h : ∀ u rows, I.Rely t u → I.Inv u → u.Answers select rows → (f rows).run.Quiet F I G u) :
    (list e select >>= f).run.Quiet F I G t :=
  Program.quiet_query h fun _ _ => Program.quiet_ret

theorem quiet_submit_bind {ops : List (Write K V)} {f : Bool → Handler K V ε β}
    (hG : ∀ t t', I.Inv t → G t t' → I.Rely t t')
    (hmove : ∀ u, I.Rely t u → I.Inv u → u.Admits ops → G u (u.apply ops))
    (h : ∀ done u, I.Rely t u → (f done).run.Quiet F I G u) :
    (submit ops >>= f).run.Quiet F I G t :=
  Program.quiet_transact hG hmove h

end Handler

end RowStore

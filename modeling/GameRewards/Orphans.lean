import GameRewards.PayoutLog
import GameRewards.RecordHistory

/-!
# Rows that outlive their game

Records and reward configurations are stored for existing games only, but
`removegame` does not look for them. `Links` is what an action does to games
and to the rows that refer to them; a row without its game was left behind by
a `removegame`.
-/

namespace GameRewards

open MultiIndex (Table Handle)

def State.HasGame (s : State) (gameId : UInt8) : Prop :=
  ∃ game ∈ s.gameconfig.rows, game.gameId = gameId

instance : Decidable (State.HasGame s g) := inferInstanceAs (Decidable (∃ game ∈ _, _))

theorem State.hasGame_of_find {s : State} (h : s.gameconfig.find g.toUInt64 = some game) :
    s.HasGame g := by
  obtain ⟨hmem, hkey⟩ := s.gameconfig.find_eq_some.mp h
  exact ⟨game, hmem, UInt8.toUInt64_inj.mp hkey⟩

theorem State.hasGame_iff {s : State} :
    s.HasGame g ↔ ∃ game, s.gameconfig.find g.toUInt64 = some game := by
  constructor
  · rintro ⟨game, hmem, rfl⟩
    exact ⟨game, s.gameconfig.find_eq_some.mpr ⟨hmem, rfl⟩⟩
  · rintro ⟨game, h⟩
    exact State.hasGame_of_find h

-- ---------------------------------------------------------------------------
-- What an action does to games and what refers to them
-- ---------------------------------------------------------------------------

inductive Links (s : State) : Call → State → Prop
  | removed : (∀ g, g ≠ gameId → s.HasGame g → s'.HasGame g) →
      s'.rewarddist = s.rewarddist → s'.gamerecords = s.gamerecords →
      Links s (.removegame gameId) s'
  | kept : (∀ g, s.HasGame g → s'.HasGame g) →
      (∀ d ∈ s'.rewarddist.rows, d ∈ s.rewarddist.rows ∨ s.HasGame d.gameId) →
      (∀ r ∈ s'.gamerecords.rows,
        (∃ r₀ ∈ s.gamerecords.rows, r₀.unflagged = r.unflagged) ∨ s.HasGame r.gameId) →
      Links s call s'

section
variable {s s' : State}

theorem State.HasGame.frame (h : s.HasGame g) (hgames : s'.gameconfig = s.gameconfig) :
    s'.HasGame g := by
  obtain ⟨game, hmem, hid⟩ := h
  exact ⟨game, hgames ▸ hmem, hid⟩

theorem Links.of_games (hgames : ∀ g, s.HasGame g → s'.HasGame g)
    (hdists : s'.rewarddist = s.rewarddist) (hrecords : s'.gamerecords = s.gamerecords) :
    Links s call s' :=
  .kept hgames (fun _ hd => .inl (hdists ▸ hd)) fun r hr => .inl ⟨r, hrecords ▸ hr, rfl⟩

theorem Links.of_dists (hgames : s'.gameconfig = s.gameconfig)
    (hdists : ∀ d ∈ s'.rewarddist.rows, d ∈ s.rewarddist.rows ∨ s.HasGame d.gameId)
    (hrecords : s'.gamerecords = s.gamerecords) : Links s call s' :=
  .kept (fun _ hg => hg.frame hgames) hdists fun r hr => .inl ⟨r, hrecords ▸ hr, rfl⟩

theorem Links.of_records (hgames : s'.gameconfig = s.gameconfig)
    (hdists : s'.rewarddist = s.rewarddist)
    (hrecords : ∀ r ∈ s'.gamerecords.rows,
      (∃ r₀ ∈ s.gamerecords.rows, r₀.unflagged = r.unflagged) ∨ s.HasGame r.gameId) :
    Links s call s' :=
  .kept (fun _ hg => hg.frame hgames) (fun _ hd => .inl (hdists ▸ hd)) hrecords

end

theorem setgame_links (h : setgame env ctx s args = .ok s') : Links s (.setgame args) s' := by
  obtain ⟨configs, rfl, hkept⟩ := setgame_ok h
  refine .of_games ?_ rfl rfl
  rintro _ ⟨game, hmem, rfl⟩
  exact hkept game hmem

theorem removegame_links (h : removegame env ctx s gameId = .ok s') :
    Links s (.removegame gameId) s' := by
  obtain ⟨configs, rfl, hkept⟩ := removegame_ok h
  refine .removed ?_ rfl rfl
  rintro _ hne ⟨game, hmem, rfl⟩
  exact ⟨game, hkept game hmem hne, rfl⟩

theorem setdistconf_links (h : setdistconf env ctx s args = .ok s') :
    Links s (.setdistconf args) s' := by
  obtain ⟨dists, game, rfl, hgame, -, hrows⟩ := setdistconf_ok h
  refine .of_dists rfl (fun d hd => ?_) rfl
  rcases hrows d hd with hd | ⟨hid, -⟩
  · exact .inl hd
  · exact .inr (hid ▸ State.hasGame_of_find hgame)

theorem rmdistconf_links (h : rmdistconf env ctx s gameId = .ok s') :
    Links s (.rmdistconf gameId) s' := by
  obtain ⟨dists, rfl, hrows⟩ := rmdistconf_ok h
  exact .of_dists rfl (fun d hd => .inl (hrows d hd)) rfl

theorem settoken_links (h : settoken env ctx s args = .ok s') : Links s (.settoken args) s' := by
  obtain ⟨tokens, rfl⟩ := settoken_ok h
  exact .of_games (fun _ hg => hg) rfl rfl

theorem removetoken_links (h : removetoken env ctx s tokenSymbol = .ok s') :
    Links s (.removetoken tokenSymbol) s' := by
  obtain ⟨tokens, rfl⟩ := removetoken_ok h
  exact .of_games (fun _ hg => hg) rfl rfl

theorem validRecord_hasGame {s : State} (h : validRecord ctx s.gameconfig record = true) :
    s.HasGame record.gameId := by
  simp only [validRecord, Bool.and_eq_true] at h
  obtain ⟨-, h⟩ := h
  split at h
  · cases h
  · rename_i hfind
    exact State.hasGame_of_find hfind

theorem recordOne_links (h : recordOne ctx s b record = .ok b') :
    ∀ r ∈ b'.gamerecords.table.rows, r ∈ b.gamerecords.table.rows ∨ s.HasGame r.gameId := by
  intro r hr
  unfold recordOne at h
  split at h
  · rename_i hvalid
    simp only [bind_ok] at h
    obtain ⟨c, -, h⟩ := h
    split at h
    · cases pure_ok.mp h
      exact .inl hr
    · simp only [bind_ok, need_ok, pure_ok] at h
      obtain ⟨⟨id, h₁⟩, hid, h₂, hrow, rfl⟩ := h
      rcases (Handle.mem_emplace hrow).mp hr with rfl | hr
      · exact .inr (validRecord_hasGame hvalid)
      · exact .inl (Handle.availablePrimaryKey_table hid ▸ hr)
  · cases pure_ok.mp h
    exact .inl hr

theorem foldlM_recordOne_links {b b' : Batch} {records : List GameRecordData}
    (h : records.foldlM (recordOne ctx s) b = .ok b') :
    ∀ r ∈ b'.gamerecords.table.rows, r ∈ b.gamerecords.table.rows ∨ s.HasGame r.gameId := by
  refine foldlM_ok (P := fun b' => ∀ r ∈ b'.gamerecords.table.rows,
    r ∈ b.gamerecords.table.rows ∨ s.HasGame r.gameId) h (fun _ hr => .inl hr) ?_
  intro b₁ record b₂ ih hone r hr
  rcases recordOne_links hone r hr with hr | hgame
  · exact ih r hr
  · exact .inr hgame

theorem recordgame_links (h : recordgame env ctx s records = .ok s') :
    Links s (.recordgame records) s' := by
  simp only [recordgame, bind_ok, pure_ok] at h
  obtain ⟨_, -, _, -, _, -, b, hb, _, -, rfl⟩ := h
  refine .of_records rfl rfl fun r hr => ?_
  rcases foldlM_recordOne_links hb r hr with hr | hgame
  · exact .inl ⟨r, hr, rfl⟩
  · exact .inr hgame

theorem clearrecord_links (h : clearrecord env ctx s ids = .ok s') :
    Links s (.clearrecord ids) s' := by
  obtain ⟨t, hrows, rfl⟩ := clearrecord_ok h
  exact .of_records rfl rfl fun r hr => .inl ⟨r, ((hrows r).mp hr).1, rfl⟩

theorem distribute_links (h : distribute env ctx s args = .ok (s', out)) :
    Links s (.distribute args) s' := by
  obtain ⟨_, _, _, _, hd⟩ := distribute_ok h
  have hgames : s'.gameconfig = s.gameconfig := by rw [hd.frame]
  have hdists : s'.rewarddist = s.rewarddist := by rw [hd.frame]
  refine .of_records hgames hdists fun r hr => ?_
  rw [hd.records_rows] at hr
  obtain ⟨r₀, hr₀, rfl⟩ := List.mem_map.mp hr
  left
  refine ⟨r₀, hr₀, ?_⟩
  rw [settleRow_eq]
  rfl

theorem exec_links (h : exec env s a = .ok (s', out)) (hreset : a.call.isInit = false) :
    Links s a.call s' := by
  obtain ⟨ctx, call⟩ := a
  cases call with
  | initcontract args => cases hreset
  | distribute args => exact distribute_links h
  | setgame args => exact setgame_links (silent_ok.mp h).1
  | removegame gameId => exact removegame_links (silent_ok.mp h).1
  | recordgame records => exact recordgame_links (silent_ok.mp h).1
  | clearrecord recordIds => exact clearrecord_links (silent_ok.mp h).1
  | setdistconf args => exact setdistconf_links (silent_ok.mp h).1
  | rmdistconf gameId => exact rmdistconf_links (silent_ok.mp h).1
  | settoken args => exact settoken_links (silent_ok.mp h).1
  | removetoken tokenSymbol => exact removetoken_links (silent_ok.mp h).1

theorem Links.dists (h : Links s call s') :
    ∀ d ∈ s'.rewarddist.rows, (∃ d₀ ∈ s.rewarddist.rows, d₀ = d) ∨ s.HasGame d.gameId := by
  intro d hd
  cases h with
  | removed _ hdists _ => exact .inl ⟨d, hdists ▸ hd, rfl⟩
  | kept _ hdists _ => exact (hdists d hd).imp_left fun hold => ⟨d, hold, rfl⟩

theorem Links.records (h : Links s call s') :
    ∀ r ∈ s'.gamerecords.rows,
      (∃ r₀ ∈ s.gamerecords.rows, r₀.unflagged = r.unflagged) ∨ s.HasGame r.gameId := by
  cases h with
  | removed _ _ hrecords => exact fun r hr => .inl ⟨r, hrecords ▸ hr, rfl⟩
  | kept _ _ hrecords => exact hrecords

-- ---------------------------------------------------------------------------
-- Left behind
-- ---------------------------------------------------------------------------

/-- The event `e` of the history `evs` removed the game, which has been absent
ever since. -/
structure LeftBehind (evs : List Event) (gameId : UInt8) (before : List Event) (e : Event)
    (since : List Event) : Prop where
  split : evs = before ++ e :: since
  call : e.request.call = .removegame gameId
  absent : ∀ i ∈ e :: since, ¬ i.post.HasGame gameId

def Explained (rows : State → List α) (gameOf : α → UInt8) (core : α → β) (evs : List Event)
    (s : State) : Prop :=
  ∀ x ∈ rows s, ¬ s.HasGame (gameOf x) →
    ∃ before e since, LeftBehind evs (gameOf x) before e since ∧
      ∃ x₀ ∈ rows e.pre, core x₀ = core x

theorem Explained.step {rows : State → List α} {gameOf : α → UInt8} {core : α → β}
    (h : Explained rows gameOf core evs s) (hl : Links s a.call s')
    (hcore : ∀ {x y}, core x = core y → gameOf x = gameOf y)
    (hremoved : s'.rewarddist = s.rewarddist → s'.gamerecords = s.gamerecords → rows s' = rows s)
    (hnew : ∀ x ∈ rows s', (∃ x₀ ∈ rows s, core x₀ = core x) ∨ s.HasGame (gameOf x)) :
    Explained rows gameOf core (evs ++ [⟨s, a, out, s'⟩]) s' := by
  intro x hx hnone
  by_cases hgame : s.HasGame (gameOf x)
  · -- The game was there before this step, so the step removed it.
    generalize hcall : a.call = call at hl
    cases hl with
    | kept hgames _ _ => exact absurd (hgames _ hgame) hnone
    | @removed gameId _ hgames hdists hrecords =>
      have hid : gameOf x = gameId := by
        by_contra hne
        exact hnone (hgames _ hne hgame)
      refine ⟨evs, _, [], ⟨rfl, hid ▸ hcall, by simpa using hnone⟩, x, ?_, rfl⟩
      rw [hremoved hdists hrecords] at hx
      exact hx
  · obtain ⟨x₀, hx₀, hsame⟩ := (hnew x hx).resolve_right hgame
    rw [← hcore hsame] at hgame hnone ⊢
    obtain ⟨before, e, since, hleft, x₁, hx₁, hsame₁⟩ := h x₀ hx₀ hgame
    refine ⟨before, e, since ++ [⟨s, a, out, s'⟩], ⟨?_, hleft.call, ?_⟩, x₁, hx₁, ?_⟩
    · rw [hleft.split, List.append_assoc, List.cons_append]
    · rw [← List.cons_append]
      exact List.forall_mem_append.mpr ⟨hleft.absent, List.forall_mem_singleton.mpr hnone⟩
    · exact hsame₁.trans hsame

theorem run_explained (env : Env) (actions : List Action) :
    Explained (fun s => s.rewarddist.rows) RewardDistConfig.gameId (fun d => d)
      (currentEra env actions) (run env actions) ∧
    Explained (fun s => s.gamerecords.rows) GameRecords.gameId GameRecords.unflagged
      (currentEra env actions) (run env actions) := by
  refine History.era_induction
    (P := fun evs s =>
      Explained (fun s => s.rewarddist.rows) RewardDistConfig.gameId (fun d => d) evs s ∧
      Explained (fun s => s.gamerecords.rows) GameRecords.gameId GameRecords.unflagged evs s)
    ?_ ?_ ?_ actions
  · constructor <;> intro x hx <;> cases hx
  · intro s a s' out hx hreset
    obtain ⟨_, -, -, rfl⟩ := (exec_effect hx).of_init hreset
    constructor <;> intro x hx <;> cases hx
  · rintro evs s a s' out ⟨hdists, hrecords⟩ hx hreset
    have hl := exec_links hx hreset
    constructor
    · exact hdists.step hl (fun h => h ▸ rfl) (fun h _ => by rw [h]) hl.dists
    · refine hrecords.step hl (fun {r r'} h => ?_) (fun _ h => by rw [h]) hl.records
      exact (congrArg GameRecords.gameId h : r.unflagged.gameId = r'.unflagged.gameId)

theorem rmdistconf_ok_iff {s : State} :
    (∃ s', rmdistconf env ctx s gameId = .ok s') ↔
      ctx.hasAuth env.self = true ∧ s.HasGame gameId ∧ ∃ d ∈ s.rewarddist.rows, d.gameId = gameId := by
  simp only [rmdistconf, bind_ok, requireAuth_ok, need_ok, pure_ok, State.hasGame_iff]
  constructor
  · rintro ⟨_, _, hauth, game, hgame, row, hrow, -⟩
    obtain ⟨hmem, hkey⟩ := s.rewarddist.find_eq_some.mp hrow
    exact ⟨hauth, ⟨game, hgame⟩, row, hmem, UInt8.toUInt64_inj.mp hkey⟩
  · rintro ⟨hauth, ⟨game, hgame⟩, row, hmem, rfl⟩
    exact ⟨_, (), hauth, game, hgame, row, s.rewarddist.find_eq_some.mpr ⟨hmem, rfl⟩, rfl⟩

/-- A stored row whose game is gone was in its table when a `removegame` of the
current initialization removed the game, which has been absent since. Its
reward configuration cannot be removed as long as the game is absent. -/
theorem orphans_left_by_removegame (env : Env) (actions : List Action) :
    (∀ d ∈ (run env actions).rewarddist.rows, ¬ (run env actions).HasGame d.gameId →
      ∃ before e since, LeftBehind (currentEra env actions) d.gameId before e since ∧
        d ∈ e.pre.rewarddist.rows) ∧
    (∀ r ∈ (run env actions).gamerecords.rows, ¬ (run env actions).HasGame r.gameId →
      ∃ before e since, LeftBehind (currentEra env actions) r.gameId before e since ∧
        ∃ r₀ ∈ e.pre.gamerecords.rows, r₀.unflagged = r.unflagged) ∧
    ∀ ctx gameId, (∃ s', rmdistconf env ctx (run env actions) gameId = .ok s') ↔
      ctx.hasAuth env.self = true ∧ (run env actions).HasGame gameId ∧
        ∃ d ∈ (run env actions).rewarddist.rows, d.gameId = gameId := by
  obtain ⟨hdists, hrecords⟩ := run_explained env actions
  refine ⟨fun d hd hnone => ?_, hrecords, fun ctx gameId => rmdistconf_ok_iff⟩
  obtain ⟨before, e, since, hleft, d₀, hd₀, rfl⟩ := hdists d hd hnone
  exact ⟨before, e, since, hleft, hd₀⟩

def Sample.abandoned : List Action :=
  Sample.setup 1000 1000 100 ++ [
    Sample.block 1050 (.recordgame [Sample.result 10 50 1010]),
    Sample.block 1051 (.removegame 1)]

theorem rows_without_game :
    (¬ ∀ (env : Env) (actions : List Action),
      ∀ d ∈ (run env actions).rewarddist.rows, (run env actions).HasGame d.gameId) ∧
    (¬ ∀ (env : Env) (actions : List Action),
      ∀ r ∈ (run env actions).gamerecords.rows, (run env actions).HasGame r.gameId) ∧
    ¬ ∀ (env : Env) (actions : List Action) (ctx : Context),
      ctx.hasAuth env.self = true → ∀ d ∈ (run env actions).rewarddist.rows,
        ∃ s', rmdistconf env ctx (run env actions) d.gameId = .ok s' := by
  have hgone : ¬ (run Sample.env Sample.abandoned).HasGame 1 := by decide
  have hdist : ⟨1, ⟨5⟩, placeholder, true⟩ ∈ (run Sample.env Sample.abandoned).rewarddist.rows := by
    decide
  have hrecord : ⟨0, ⟨10⟩, 1, [Sample.kills], [50], 1, false, 1010, 1050⟩ ∈
      (run Sample.env Sample.abandoned).gamerecords.rows := by
    decide
  refine ⟨fun h => hgone (h _ _ _ hdist), fun h => hgone (h _ _ _ hrecord), fun h => ?_⟩
  obtain ⟨s', hs'⟩ := h Sample.env Sample.abandoned (Sample.context 1052) rfl _ hdist
  cases hs'

end GameRewards

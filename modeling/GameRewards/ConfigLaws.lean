import GameRewards.Actions.RewardManagement

/-!
# What the configuration actions do

Each of them changes one table.
-/

namespace GameRewards

open MultiIndex (Table)

theorem setgame_ok (h : setgame env ctx s args = .ok s') :
    ∃ configs, s' = { s with gameconfig := configs } ∧
      ∀ game ∈ s.gameconfig.rows, ∃ game' ∈ configs.rows, game'.gameId = game.gameId := by
  simp only [setgame, bind_ok] at h
  obtain ⟨_, -, _, -, h⟩ := h
  split at h
  · simp only [bind_ok, need_ok, pure_ok] at h
    obtain ⟨configs, hstored, rfl⟩ := h
    refine ⟨configs, rfl, fun game hmem => ⟨game, ?_, rfl⟩⟩
    exact ((Table.emplace_eq_some hstored).2 game).mpr (.inr hmem)
  · cases pure_ok.mp h
    refine ⟨_, rfl, fun game hmem => ⟨_, List.mem_map_of_mem hmem, ?_⟩⟩
    split <;> rfl

theorem removegame_ok (h : removegame env ctx s gameId = .ok s') :
    ∃ configs, s' = { s with gameconfig := configs } ∧
      ∀ game ∈ s.gameconfig.rows, game.gameId ≠ gameId → game ∈ configs.rows := by
  simp only [removegame, bind_ok, need_ok, pure_ok] at h
  obtain ⟨_, -, config, hfind, rfl⟩ := h
  refine ⟨_, rfl, fun game hmem hne => (s.gameconfig.mem_erase).mpr ⟨hmem, fun hsame => hne ?_⟩⟩
  obtain ⟨-, hkey⟩ := s.gameconfig.find_eq_some.mp hfind
  exact UInt8.toUInt64_inj.mp (hsame.trans hkey)

/-- A row is stored or rewritten for an existing game and a destination that is
an account. -/
theorem setdistconf_ok (h : setdistconf env ctx s args = .ok s') :
    ∃ dists game, s' = { s with rewarddist := dists } ∧
      s.gameconfig.find args.gameId.toUInt64 = some game ∧
      ctx.isAccount args.destinationContract = true ∧
      ∀ d ∈ dists.rows, d ∈ s.rewarddist.rows ∨
        d.gameId = args.gameId ∧ d.destinationContract = args.destinationContract := by
  simp only [setdistconf, bind_ok, need_ok, check_ok] at h
  obtain ⟨_, -, game, hgame, _, haccount, _, -, h⟩ := h
  split at h
  · simp only [bind_ok, need_ok, pure_ok] at h
    obtain ⟨configs, hstored, rfl⟩ := h
    refine ⟨configs, game, rfl, hgame, haccount, fun d hd => ?_⟩
    rcases ((Table.emplace_eq_some hstored).2 d).mp hd with rfl | hd
    · exact .inr ⟨rfl, rfl⟩
    · exact .inl hd
  · rename_i row hfind
    cases pure_ok.mp h
    refine ⟨_, game, rfl, hgame, haccount, fun d hd => ?_⟩
    obtain ⟨d₀, hd₀, rfl⟩ := List.mem_map.mp hd
    split
    · rename_i hkey
      have hid : d₀.gameId = args.gameId :=
        UInt8.toUInt64_inj.mp (hkey.trans (s.rewarddist.find_eq_some.mp hfind).2)
      exact .inr ⟨hid, rfl⟩
    · exact .inl hd₀

theorem rmdistconf_ok (h : rmdistconf env ctx s gameId = .ok s') :
    ∃ dists, s' = { s with rewarddist := dists } ∧ ∀ d ∈ dists.rows, d ∈ s.rewarddist.rows := by
  simp only [rmdistconf, bind_ok, pure_ok] at h
  obtain ⟨_, -, _, -, _, -, rfl⟩ := h
  exact ⟨_, rfl, fun d hd => ((s.rewarddist.mem_erase).mp hd).1⟩

theorem settoken_ok (h : settoken env ctx s args = .ok s') :
    ∃ tokens, s' = { s with tokenconfig := tokens } := by
  simp only [settoken, bind_ok] at h
  obtain ⟨_, -, h⟩ := h
  split at h
  · simp only [bind_ok, pure_ok] at h
    obtain ⟨tokens, -, rfl⟩ := h
    exact ⟨tokens, rfl⟩
  · cases pure_ok.mp h
    exact ⟨_, rfl⟩

theorem removetoken_ok (h : removetoken env ctx s tokenSymbol = .ok s') :
    ∃ tokens, s' = { s with tokenconfig := tokens } := by
  simp only [removetoken, bind_ok, pure_ok] at h
  obtain ⟨_, -, _, -, rfl⟩ := h
  exact ⟨_, rfl⟩

end GameRewards

import AuraCall.Lib.LeastLoaded
import AuraCall.Runtime.ResponseBatches

/-!
# Dispatch pools

`resolveResponseBatchDispatchPool` gives each request of a batch to a member of a team. A member is an entry of the team whose
agent is enabled and has a service and a runtime profile; its load is the number of direct runs that its agent has under way
when the batch is resolved, and of the requests it has been given since. Each request goes to a least loaded member, the next
one in turn where there are several.
-/

namespace AuraCall.Runtime

open LeastLoaded

/-! ## Teams and members -/

structure EffectiveAgent where
  id : String
  enabled : Bool
  service : Option String
  defaultService : Option String
  runtimeProfileId : Option String
  model : Option String
  modelSelector : Option String
  projectName : Option String

inductive TeamType
  | workflow | dispatchPool
  deriving DecidableEq

def TeamType.text : TeamType → String
  | workflow => "workflow"
  | dispatchPool => "dispatch-pool"

structure EffectiveTeam where
  id : String
  type : TeamType
  agentIds : List String
  projectName : Option String

structure EffectiveAgentCatalog where
  agents : List EffectiveAgent
  teams : List EffectiveTeam

structure RunnableMember where
  agent : EffectiveAgent
  service : String
  runtimeProfile : String

/-- The member of an agent that can run. The last agent with an id is the one in the map. -/
def runnableMember (catalog : EffectiveAgentCatalog) (agentId : String) : Option RunnableMember := do
  let agent ← catalog.agents.reverse.find? (·.id == agentId)
  if agent.enabled then
    let service ← (agent.service.or agent.defaultService).filter (! ·.isEmpty)
    let runtimeProfile ← agent.runtimeProfileId.filter (! ·.isEmpty)
    some ⟨agent, service, runtimeProfile⟩
  else none

def resolveRunnableMembers (team : EffectiveTeam) (catalog : EffectiveAgentCatalog) : List RunnableMember :=
  team.agentIds.filterMap (runnableMember catalog)

/-! ## Loads -/

def countActiveMemberRuns (records : List ExecutionRunRecordBundle) (agentId : String) : Nat :=
  records.countP fun bundle =>
    bundle.run.initialInputs.string? "agent" == some agentId && !bundle.run.status.isTerminal &&
      (bundle.leases.any (·.status == .active) || bundle.steps.any (·.status == .running))

/-- The load at an index of the two lists. -/
def totalLoad (baseLoads assignedLoads : List Nat) (index : Nat) : Nat := baseLoads.getD index 0 + assignedLoads.getD index 0

def chooseNextMemberIndex (baseLoads assignedLoads : List Nat) (tieCursor : Nat) : Nat :=
  let totalLoads := baseLoads.mapIdx fun index load => load + assignedLoads.getD index 0
  let lowestLoad := totalLoads.min?
  (((List.range totalLoads.length).map fun offset => (tieCursor + offset) % totalLoads.length).find? fun index =>
    totalLoads[index]? == lowestLoad).getD 0

/-! ## Requests -/

def assertRequestIsDispatchable (request : ExecutionRequest) (teamId : String) : Except String Unit :=
  match (request.auracall.bind (·.agent)).filter fun agent => !(trim agent).isEmpty with
  | some explicitAgent =>
    .error ("Response-batch dispatch pool \"" ++ teamId ++
      "\" cannot dispatch a child request that already pins auracall.agent \"" ++ explicitAgent ++ "\".")
  | none =>
    if "agent:".toList.isPrefixOf request.model.toList then
      .error ("Response-batch dispatch pool \"" ++ teamId ++
        "\" cannot dispatch a child request that already pins model \"" ++ request.model ++ "\".")
    else .ok ()

def assignRequestToMember (request : ExecutionRequest) (member : RunnableMember) (teamId : String) : ExecutionRequest :=
  { request with
    model := "agent:" ++ member.agent.id
    auracall := some {
      team := some teamId
      agent := some member.agent.id
      service := some member.service
      runtimeProfile := some member.runtimeProfile } }

def buildDispatchWarnings (team : EffectiveTeam) (members : List RunnableMember) : List String :=
  let services := sortStrings (members.map (·.service)).eraseDups
  let modelBindings := sortStrings
    (members.filterMap fun member => (member.agent.modelSelector.or member.agent.model).filter (! ·.isEmpty)).eraseDups
  let projectNames := sortStrings (members.filterMap fun member => member.agent.projectName.filter (! ·.isEmpty)).eraseDups
  let teamProject := team.projectName.filter (! ·.isEmpty)
  let pool := "Dispatch-pool team \"" ++ team.id ++ "\""
  (if services.length > 1 then
    [pool ++ " spans multiple services (" ++ ", ".intercalate services ++
      "); AuraCall dispatches the batch, but output consistency is caller-owned."] else []) ++
  (if modelBindings.length > 1 then
    [pool ++ " has mixed member model bindings (" ++ ", ".intercalate modelBindings ++
      "); use equivalent models for consistent results."] else []) ++
  teamProject.toList.map (fun projectName => pool ++ " is project-bound to \"" ++ projectName ++
    "\" with projectSync=none; AuraCall does not reconcile project instructions, files, or settings between tenants.") ++
  (teamProject.filter fun projectName => !projectNames.contains projectName || decide (projectNames.length > 1)).toList.map
    fun projectName => pool ++ " member agents do not all point at project name \"" ++ projectName ++
      "\"; dispatch continues, but project divergence can change results."

/-! ## The resolution -/

/-- The loop over the requests, from the loads that have been assigned and the cursor of the turns. -/
def assignRequests (teamId : String) (members : List RunnableMember) (baseLoads : List Nat) :
    List Nat → Nat → List ExecutionRequest → Except String (List (ExecutionRequest × ResponseBatchDispatchJobAssignment))
  | _, _, [] => .ok []
  | assignedLoads, tieCursor, request :: requests => do
    assertRequestIsDispatchable request teamId
    let memberIndex := chooseNextMemberIndex baseLoads assignedLoads tieCursor
    match members[memberIndex]? with
    | none => .error "Cannot read properties of undefined (reading 'agent')"
    | some member =>
      let rest ← assignRequests teamId members baseLoads (assignedLoads.modify memberIndex (· + 1))
        ((memberIndex + 1) % members.length) requests
      return (assignRequestToMember request member teamId, ⟨teamId, member.agent.id, memberIndex⟩) :: rest

def resolveResponseBatchDispatchPool (catalog : EffectiveAgentCatalog) (activeRuns : List ExecutionRunRecordBundle)
    (dispatch : ResponseBatchDispatchRequest) (requests : List ExecutionRequest) :
    Except String ResponseBatchDispatchResolution := do
  match catalog.teams.find? (·.id == dispatch.team) with
  | none => .error ("Dispatch-pool team \"" ++ dispatch.team ++ "\" was not found in the effective agent catalog.")
  | some team =>
    if team.type ≠ .dispatchPool then
      .error ("Team \"" ++ team.id ++ "\" is type \"" ++ team.type.text ++
        "\" and cannot be used as a response-batch dispatch pool.")
    else
      let members := resolveRunnableMembers team catalog
      if members.isEmpty then .error ("Dispatch-pool team \"" ++ team.id ++ "\" has no runnable members.")
      else
        let baseLoads := members.map fun member => countActiveMemberRuns activeRuns member.agent.id
        let assigned ← assignRequests team.id members baseLoads (members.map fun _ => 0) 0 requests
        return {
          requests := assigned.map (·.1)
          dispatch := ⟨team.id, members.length, team.projectName, buildDispatchWarnings team members⟩
          assignments := assigned.map (·.2) }

/-! ## The least loaded member -/

section Choice

variable {baseLoads assignedLoads : List Nat}

theorem chooseNextMemberIndex_spec (hpos : 0 < baseLoads.length) (assignedLoads : List Nat) (tieCursor : Nat) :
    chooseNextMemberIndex baseLoads assignedLoads tieCursor < baseLoads.length ∧ ∀ j < baseLoads.length,
      totalLoad baseLoads assignedLoads (chooseNextMemberIndex baseLoads assignedLoads tieCursor) ≤
        totalLoad baseLoads assignedLoads j := by
  unfold chooseNextMemberIndex
  generalize htotal : (baseLoads.mapIdx fun index load => load + assignedLoads.getD index 0) = totalLoads
  have hlength : totalLoads.length = baseLoads.length := by rw [← htotal, List.length_mapIdx]
  have hget : ∀ j < baseLoads.length, totalLoads[j]? = some (totalLoad baseLoads assignedLoads j) := by
    intro j hj
    simp [← htotal, List.getElem?_mapIdx, totalLoad, List.getD_eq_getElem?_getD, List.getElem?_eq_getElem hj]
  obtain ⟨lowest, hlowest⟩ : ∃ lowest, totalLoads.min? = some lowest :=
    Option.ne_none_iff_exists'.1 fun h => by simp [List.min?_eq_none_iff] at h; simp [h] at hlength; omega
  obtain ⟨hm, hle⟩ := List.min?_eq_some_iff.1 hlowest
  -- the index of the lowest load is reached from the cursor
  obtain ⟨index, hindex, hat⟩ := List.mem_iff_getElem.1 hm
  have hfound : ((List.range totalLoads.length).map fun offset => (tieCursor + offset) % totalLoads.length).find?
      (fun index => totalLoads[index]? == totalLoads.min?) ≠ none := by
    rw [Ne, List.find?_eq_none]
    push Not
    have hmod : tieCursor % totalLoads.length < totalLoads.length := Nat.mod_lt _ (by omega)
    have hreach : (tieCursor + (index + (totalLoads.length - tieCursor % totalLoads.length)) % totalLoads.length) %
        totalLoads.length = index := by
      rw [Nat.add_mod_mod]
      have hdiv := Nat.div_add_mod tieCursor totalLoads.length
      have hsum : tieCursor + (index + (totalLoads.length - tieCursor % totalLoads.length)) =
          index + totalLoads.length * (tieCursor / totalLoads.length + 1) := by
        rw [Nat.mul_add, Nat.mul_one]
        omega
      rw [hsum, Nat.add_mul_mod_self_left, Nat.mod_eq_of_lt hindex]
    refine ⟨index, List.mem_map.2 ⟨_, List.mem_range.2 (Nat.mod_lt _ (by omega)), hreach⟩, ?_⟩
    rw [beq_iff_eq, List.getElem?_eq_getElem hindex, hat, hlowest]
  obtain ⟨found, hfound⟩ := Option.ne_none_iff_exists'.1 hfound
  dsimp only
  rw [hfound, Option.getD_some]
  obtain ⟨offset, -, hoffset⟩ := List.mem_map.1 (List.mem_of_find?_eq_some hfound)
  have hlt : found < baseLoads.length := by
    rw [← hoffset, ← hlength]
    exact Nat.mod_lt _ (by omega)
  refine ⟨hlt, fun j hj => ?_⟩
  have heq := List.find?_some hfound
  rw [beq_iff_eq, hlowest, hget found hlt] at heq
  rw [Option.some.inj heq]
  exact hle _ (List.mem_of_getElem? (hget j hj))

theorem totalLoad_modify {index : Nat} (hindex : index < assignedLoads.length) :
    totalLoad baseLoads (assignedLoads.modify index (· + 1)) =
      fun j => totalLoad baseLoads assignedLoads j + if j = index then 1 else 0 := by
  funext j
  unfold totalLoad
  simp only [List.getD_eq_getElem?_getD, List.getElem?_modify]
  by_cases hj : j = index
  · subst hj
    rw [List.getElem?_eq_getElem hindex]
    simp [Nat.add_assoc]
  · cases assignedLoads[j]? <;> simp [hj, Ne.symm hj]

end Choice

/-! ## The loop -/

section Loop

variable {teamId : String} {members : List RunnableMember} {baseLoads : List Nat}

/-- The request goes to the member that the assignment names. -/
def AssignedTo (teamId : String) (members : List RunnableMember) (request : ExecutionRequest)
    (assigned : ExecutionRequest × ResponseBatchDispatchJobAssignment) : Prop :=
  ∃ member, members[assigned.2.memberIndex]? = some member ∧ assigned.1 = assignRequestToMember request member teamId ∧
    assigned.2.team = teamId ∧ assigned.2.memberAgent = member.agent.id

/-- **What the loop assigns**: each request, in order, to a least loaded member. -/
theorem assignRequests_spec (hbase : baseLoads.length = members.length) (hpos : 0 < members.length) :
    ∀ {requests : List ExecutionRequest} {assignedLoads : List Nat} {tieCursor : Nat}
      {out : List (ExecutionRequest × ResponseBatchDispatchJobAssignment)}, assignedLoads.length = members.length →
      assignRequests teamId members baseLoads assignedLoads tieCursor requests = .ok out →
      (∀ request ∈ requests, assertRequestIsDispatchable request teamId = .ok ()) ∧
        List.Forall₂ (AssignedTo teamId members) requests out ∧
        Greedy (· < members.length) (totalLoad baseLoads assignedLoads) (out.map (·.2.memberIndex))
  | [], _, _, _, _, h => by
    cases h
    exact ⟨nofun, .nil, .nil⟩
  | request :: requests, assignedLoads, tieCursor, out, hlength, h => by
    obtain ⟨hlt, hmin⟩ := chooseNextMemberIndex_spec (hbase ▸ hpos) assignedLoads tieCursor
    unfold assignRequests at h
    cases hdispatchable : assertRequestIsDispatchable request teamId with
    | error message => rw [hdispatchable] at h; cases h
    | ok =>
      rw [hdispatchable] at h
      have hmember := List.getElem?_eq_getElem (hbase ▸ hlt : _ < members.length)
      simp only [hmember, bind, Except.bind] at h
      split at h
      · cases h
      · rename_i rest hrest
        cases h
        obtain ⟨hall, hassigned, hgreedy⟩ := assignRequests_spec hbase hpos (by rw [List.length_modify, hlength]) hrest
        rw [totalLoad_modify (by rw [hlength, ← hbase]; exact hlt)] at hgreedy
        refine ⟨fun r hm => ?_, .cons ⟨_, hmember, rfl, rfl, rfl⟩ hassigned, .cons (hlt.trans_eq hbase) (fun j hj => hmin j (hj.trans_eq hbase.symm)) hgreedy⟩
        rcases List.mem_cons.1 hm with rfl | hm
        · exact hdispatchable
        · exact hall r hm

theorem assignRequests_ok (hbase : baseLoads.length = members.length) (hpos : 0 < members.length) :
    ∀ {requests : List ExecutionRequest} (assignedLoads : List Nat) (tieCursor : Nat),
      (∀ request ∈ requests, assertRequestIsDispatchable request teamId = .ok ()) →
      ∃ out, assignRequests teamId members baseLoads assignedLoads tieCursor requests = .ok out
  | [], _, _, _ => ⟨[], rfl⟩
  | request :: requests, assignedLoads, tieCursor, h => by
    obtain ⟨hrequest, hrequests⟩ := List.forall_mem_cons.1 h
    have hlt := (chooseNextMemberIndex_spec (hbase ▸ hpos) assignedLoads tieCursor).1
    have hmember := List.getElem?_eq_getElem (hbase ▸ hlt : _ < members.length)
    obtain ⟨out, hout⟩ := assignRequests_ok hbase hpos
      (assignedLoads.modify (chooseNextMemberIndex baseLoads assignedLoads tieCursor) (· + 1))
      ((chooseNextMemberIndex baseLoads assignedLoads tieCursor + 1) % members.length) hrequests
    unfold assignRequests
    simp only [hrequest, hmember, hout, bind, Except.bind]
    exact ⟨_, rfl⟩

end Loop

/-- The load of a member when the batch is resolved. -/
def baseLoad (activeRuns : List ExecutionRunRecordBundle) (members : List RunnableMember) (index : Nat) : Nat :=
  members[index]?.elim 0 fun member => countActiveMemberRuns activeRuns member.agent.id

theorem totalLoad_start (activeRuns : List ExecutionRunRecordBundle) (members : List RunnableMember) :
    totalLoad (members.map fun member => countActiveMemberRuns activeRuns member.agent.id) (members.map fun _ => 0) =
      baseLoad activeRuns members := by
  funext index
  unfold totalLoad baseLoad
  rw [List.getD_eq_getElem?_getD, List.getD_eq_getElem?_getD, List.getElem?_map, List.getElem?_map]
  cases members[index]? <;> rfl

/-- A member is an entry of the team whose agent is enabled, and has a service and a runtime profile. -/
theorem mem_resolveRunnableMembers {team : EffectiveTeam} {catalog : EffectiveAgentCatalog} {member : RunnableMember}
    (h : member ∈ resolveRunnableMembers team catalog) :
    member.agent ∈ catalog.agents ∧ member.agent.id ∈ team.agentIds ∧ member.agent.enabled = true ∧
      member.agent.service.or member.agent.defaultService = some member.service ∧ member.service ≠ "" ∧
      member.agent.runtimeProfileId = some member.runtimeProfile ∧ member.runtimeProfile ≠ "" := by
  obtain ⟨agentId, hid, h⟩ := List.mem_filterMap.1 h
  obtain ⟨agent, hfind, h⟩ := Option.bind_eq_some_iff.1 h
  split at h
  · rename_i henabled
    obtain ⟨service, hservice, h⟩ := Option.bind_eq_some_iff.1 h
    obtain ⟨runtimeProfile, hprofile, h⟩ := Option.bind_eq_some_iff.1 h
    cases h
    obtain ⟨hservice, hs⟩ := Option.filter_eq_some_iff.1 hservice
    obtain ⟨hprofile, hp⟩ := Option.filter_eq_some_iff.1 hprofile
    have hagent : agent.id = agentId := by simpa using List.find?_some hfind
    exact ⟨List.mem_reverse.1 (List.mem_of_find?_eq_some hfind), hagent ▸ hid, henabled, hservice, by simpa using hs,
      hprofile, by simpa using hp⟩
  · cases h

/-- **The dispatch of a batch.** It succeeds when the pool has a member that can run and no request pins an agent; then it gives
each request, in order, to a least loaded member, and two members that were given requests end with loads at most one apart. -/
theorem dispatch_balanced (catalog : EffectiveAgentCatalog) (activeRuns : List ExecutionRunRecordBundle)
    (dispatch : ResponseBatchDispatchRequest) (requests : List ExecutionRequest) :
    ((∃ resolution, resolveResponseBatchDispatchPool catalog activeRuns dispatch requests = .ok resolution) ↔
      ∃ team, catalog.teams.find? (·.id == dispatch.team) = some team ∧ team.type = .dispatchPool ∧
        resolveRunnableMembers team catalog ≠ [] ∧
        ∀ request ∈ requests, assertRequestIsDispatchable request team.id = .ok ()) ∧
    ∀ resolution, resolveResponseBatchDispatchPool catalog activeRuns dispatch requests = .ok resolution →
      ∃ team members load, team ∈ catalog.teams ∧ team.id = dispatch.team ∧ members = resolveRunnableMembers team catalog ∧
        load = LeastLoaded.load (baseLoad activeRuns members) ∧
        resolution.requests.length = requests.length ∧ resolution.assignments.length = requests.length ∧
        List.Forall₂ (AssignedTo team.id members) requests (resolution.requests.zip resolution.assignments) ∧
        (∀ member ∈ members, member.agent ∈ catalog.agents ∧ member.agent.id ∈ team.agentIds ∧ member.agent.enabled = true ∧
          member.agent.service.or member.agent.defaultService = some member.service ∧ member.service ≠ "" ∧
          member.agent.runtimeProfileId = some member.runtimeProfile ∧ member.runtimeProfile ≠ "") ∧
        (∀ before index after, resolution.assignments.map (·.memberIndex) = before ++ index :: after →
          index < members.length ∧ ∀ other < members.length, load before index ≤ load before other) ∧
        ∀ index ∈ resolution.assignments.map (·.memberIndex), ∀ other ∈ resolution.assignments.map (·.memberIndex),
          load (resolution.assignments.map (·.memberIndex)) index ≤
            load (resolution.assignments.map (·.memberIndex)) other + 1 := by
  unfold resolveResponseBatchDispatchPool
  cases hteam : catalog.teams.find? (·.id == dispatch.team) with
  | none => exact ⟨iff_of_false (fun ⟨_, h⟩ => by cases h) (fun ⟨_, h, _⟩ => by cases h), fun _ h => by cases h⟩
  | some team =>
    by_cases htype : team.type = .dispatchPool
    case neg =>
      simp only [ne_eq, htype, not_false_eq_true, if_true]
      refine ⟨iff_of_false (fun ⟨_, h⟩ => by cases h) ?_, fun _ h => by cases h⟩
      rintro ⟨_, ⟨⟩, h, -⟩
      exact htype h
    simp only [ne_eq, htype, not_true_eq_false, if_false]
    by_cases hempty : resolveRunnableMembers team catalog = []
    · simp only [hempty, List.isEmpty_nil, if_true]
      refine ⟨iff_of_false (fun ⟨_, h⟩ => by cases h) ?_, fun _ h => by cases h⟩
      rintro ⟨_, ⟨⟩, -, h, -⟩
      exact h hempty
    rw [if_neg fun h => hempty (List.isEmpty_iff.1 h)]
    have hpos : 0 < (resolveRunnableMembers team catalog).length := List.length_pos_iff.2 hempty
    have hbase : ((resolveRunnableMembers team catalog).map fun member =>
        countActiveMemberRuns activeRuns member.agent.id).length = (resolveRunnableMembers team catalog).length :=
      List.length_map _
    cases hassigned : assignRequests team.id (resolveRunnableMembers team catalog)
        ((resolveRunnableMembers team catalog).map fun member => countActiveMemberRuns activeRuns member.agent.id)
        ((resolveRunnableMembers team catalog).map fun _ => 0) 0 requests with
    | error message =>
      refine ⟨iff_of_false (fun ⟨_, h⟩ => by cases h) ?_, fun _ h => by cases h⟩
      rintro ⟨_, ⟨⟩, -, -, hall⟩
      obtain ⟨out, hout⟩ := assignRequests_ok hbase hpos ((resolveRunnableMembers team catalog).map fun _ => 0) 0 hall
      rw [hassigned] at hout
      cases hout
    | ok out =>
      obtain ⟨hall, hforall, hgreedy⟩ := assignRequests_spec hbase hpos (List.length_map _) hassigned
      rw [totalLoad_start] at hgreedy
      refine ⟨iff_of_true ⟨_, rfl⟩ ⟨team, rfl, htype, hempty, hall⟩, fun resolution h => ?_⟩
      cases h
      have hteamId : team.id = dispatch.team := by simpa using List.find?_some hteam
      have hlength := hforall.length_eq
      refine ⟨team, _, _, List.mem_of_find?_eq_some hteam, hteamId, rfl, rfl, by simp [hlength], by simp [hlength], ?_,
        fun member hm => mem_resolveRunnableMembers hm, ?_, ?_⟩
      · rw [List.zip_map', List.map_id'' fun _ => rfl]
        exact hforall
      · rw [List.map_map]
        exact hgreedy
      · rw [List.map_map]
        intro index hindex other hother
        obtain ⟨before, after, hsplit⟩ := List.append_of_mem hother
        exact hgreedy.load_le hindex (hgreedy before other after hsplit).1

/-! ## A pool of two -/

/-- Two members can run, and a third agent is disabled. -/
def twoMemberCatalog : EffectiveAgentCatalog where
  agents := [⟨"a", true, some "chatgpt", none, some "profile-a", none, none, none⟩,
    ⟨"b", true, none, some "chatgpt", some "profile-b", none, none, none⟩,
    ⟨"c", false, some "chatgpt", none, some "profile-c", none, none, none⟩]
  teams := [⟨"pool", .dispatchPool, ["a", "b", "c"], none⟩]

theorem three_requests_dispatched : ∃ resolution,
    resolveResponseBatchDispatchPool twoMemberCatalog [] ⟨"pool"⟩ (List.replicate 3 ⟨"gpt", .string "prompt", none, none⟩) =
      .ok resolution ∧ resolution.assignments.length = 3 := by
  have hspec := dispatch_balanced twoMemberCatalog [] ⟨"pool"⟩ (List.replicate 3 ⟨"gpt", .string "prompt", none, none⟩)
  obtain ⟨resolution, hresolution⟩ := hspec.1.2 ⟨_, rfl, rfl,
    fun h => absurd (congrArg List.length h) (by decide +kernel), fun request hm => by
      rw [List.eq_of_mem_replicate hm]
      decide +kernel⟩
  obtain ⟨_, _, _, -, -, -, -, -, hlength, -⟩ := hspec.2 resolution hresolution
  exact ⟨resolution, hresolution, hlength⟩

end AuraCall.Runtime

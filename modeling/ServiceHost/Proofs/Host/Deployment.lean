import ServiceHost.Host.Deploy
import ServiceHost.Proofs.Resolver.Built

/-! Deployment of what settings describe: all of it, or nothing.

All resolvers are built before the first is deployed, so that one that cannot be built leaves the
host as it was. Building only adds to the store, and deploying only writes names. -/

set_option autoImplicit false

namespace ServiceHost

namespace Table

variable {α : Type} {table : Table α} {key : String}

theorem lookup_reverse_of_absent {pairs : List (String × α)}
    (absent : key ∉ pairs.map Prod.fst) : pairs.reverse.lookup key = none := by
  refine List.lookup_eq_none_iff.mpr fun pair there => ?_
  rw [bne_iff_ne]
  rintro rfl
  exact absent (List.mem_map_of_mem (List.mem_reverse.mp there))

theorem get?_insertAll_of_absent {pairs : List (String × α)}
    (absent : key ∉ pairs.map Prod.fst) : (table.insertAll pairs).get? key = table.get? key := by
  rw [get?_insertAll, lookup_reverse_of_absent absent, Option.none_or]

/-- What is written last under a key stays there. -/
theorem get?_insertAll_last {front back : List (String × α)} {pair : String × α}
    (last : pair.1 ∉ back.map Prod.fst) :
    (table.insertAll (front ++ pair :: back)).get? pair.1 = some pair.2 := by
  obtain ⟨key, value⟩ := pair
  rw [get?_insertAll, List.reverse_append, List.reverse_cons, List.append_assoc,
    List.lookup_append, lookup_reverse_of_absent last]
  simp

end Table

namespace Settings

open ServiceHost.Resolver.Description (Valid FirstFault valid_iff firstFault_iff)
open ServiceHost.Resolvers (Comes build_comes)

/-- What a deployment reports if its resolver cannot be built. -/
def fault? (files : Files) (deployment : Deployment) : Option SettingsError :=
  (deployment.resolver.leaves.findSome? (Resolver.Description.fault? files)).map
    (.resolver deployment.service)

/-- What was built for a deployment is named after its service, is new, and means what its
description says in every store that keeps what was added. -/
structure Ready (before after : Resolvers) (pair : String × ResolverId) (deployment : Deployment) :
    Prop where
  service : pair.1 = deployment.service
  fresh : before.all.length ≤ pair.2
  embodies : ∀ later, before.Keeps after later → later.Embodies pair.2 deployment.resolver

variable {files : Files} {before middle after : Resolvers}

theorem Ready.of_later {pair : String × ResolverId} {deployment : Deployment}
    (ready : Ready middle after pair deployment) (grown : before.all <+: middle.all) :
    Ready before after pair deployment where
  service := ready.service
  fresh := Nat.le_trans grown.length_le ready.fresh
  embodies := fun later keeps => ready.embodies later (keeps.back grown)

theorem fault?_eq_none_iff {deployment : Deployment} :
    fault? files deployment = none ↔ Valid files deployment.resolver := by
  rw [fault?, Option.map_eq_none_iff, valid_iff]

theorem fault?_eq_some_iff {deployment : Deployment} {cause : SettingsError} :
    fault? files deployment = some cause ↔ ∃ reason,
      FirstFault files deployment.resolver.leaves reason ∧
        .resolver deployment.service reason = cause := by
  simp only [fault?, Option.map_eq_some_iff, firstFault_iff]

/-- Building goes on after a deployment only if its resolver could be built. -/
theorem buildAll_cons (deployment : Deployment) (rest : List Deployment) (store : Resolvers) :
    buildAll files (deployment :: rest) store =
      (deployment.resolver.build files store).mapError (.resolver deployment.service) >>=
        fun (id, middle) => buildAll files rest middle >>=
          fun (pairs, after) => .ok ((deployment.service, id) :: pairs, after) := by
  rw [buildAll]
  rcases deployment.resolver.build files store with cause | ⟨id, middle⟩
  · rfl
  · dsimp only [Except.mapError, bind, Except.bind]
    rcases buildAll files rest middle with cause | ⟨pairs, after⟩ <;> rfl

theorem buildAll_comes (deployments : List Deployment) (store : Resolvers) :
    Comes (buildAll files deployments store) (deployments.findSome? (fault? files))
      fun built after => store.all <+: after.all ∧
        List.Forall₂ (Ready store after) built deployments := by
  induction deployments generalizing store with
  | nil => exact ⟨[], store, rfl, List.prefix_refl _, .nil⟩
  | cons deployment rest ih =>
    have faults : (deployment :: rest).findSome? (fault? files) =
        (fault? files deployment).or (rest.findSome? (fault? files)) := by
      rw [List.findSome?_cons]
      cases fault? files deployment <;> rfl
    rw [buildAll_cons, faults]
    refine ((build_comes files deployment.resolver store).mapError _).bind
      fun id middle stands => (ih middle).map fun pairs after built => ?_
    obtain ⟨grown, all⟩ := built
    refine ⟨_, _, rfl, stands.grown.trans grown, .cons ⟨rfl, stands.fresh, ?_⟩ ?_⟩
    · exact fun later keeps => stands.embodies (keeps.front grown)
    · exact all.imp fun pair deployment ready => ready.of_later stands.grown

theorem foldl_deploy (built : List (String × ResolverId)) (host : Host) :
    built.foldl (fun host (name, id) => host.deploy name id) host =
      { host with deployed := host.deployed.insertAll built } := by
  induction built generalizing host with
  | nil => rfl
  | cons pair rest ih =>
    rw [List.foldl_cons, ih]
    rfl

theorem names_of_ready {built : List (String × ResolverId)} {deployments : List Deployment}
    (all : List.Forall₂ (Ready before after) built deployments) :
    built.map Prod.fst = deployments.map Deployment.service := by
  induction all with
  | nil => rfl
  | cons ready _ ih => rw [List.map_cons, List.map_cons, ready.service, ih]

/-- The host after all deployments, told by the names. -/
structure Deployed (deployments : List Deployment) (host after : Host) : Prop where
  /-- A service is served by the resolver of its last deployment. -/
  last : ∀ front deployment back, deployments = front ++ deployment :: back →
    deployment.service ∉ back.map Deployment.service →
    ∃ id, after.deployed.get? deployment.service = some id ∧ host.resolvers.all.length ≤ id ∧
      ∀ later, host.resolvers.Keeps after.resolvers later →
        later.Embodies id deployment.resolver
  others : ∀ name, name ∉ deployments.map Deployment.service →
    after.deployed.get? name = host.deployed.get? name
  /-- The resolvers that were there are still there, as they were. -/
  grown : host.resolvers.all <+: after.resolvers.all
  only : after = { host with deployed := after.deployed, resolvers := after.resolvers }

theorem deployed_of_ready {deployments : List Deployment} {built : List (String × ResolverId)}
    {host : Host} {resolvers : Resolvers} (grown : host.resolvers.all <+: resolvers.all)
    (all : List.Forall₂ (Ready host.resolvers resolvers) built deployments) :
    Deployed deployments host
      { host with resolvers, deployed := host.deployed.insertAll built } where
  last := by
    rintro front deployment back rfl absent
    obtain ⟨pair, others, ready, rest, split⟩ :=
      List.forall₂_cons_right_iff.mp (List.forall₂_drop_append built front _ all)
    have parts : built = built.take front.length ++ pair :: others := by
      rw [← split, List.take_append_drop]
    have unnamed : deployment.service ∉ others.map Prod.fst := by
      rwa [names_of_ready rest]
    refine ⟨pair.2, ?_, ready.fresh, ready.embodies⟩
    rw [← ready.service] at unnamed ⊢
    rw [parts]
    exact Table.get?_insertAll_last unnamed
  others := by
    intro name absent
    rw [← names_of_ready all] at absent
    exact Table.get?_insertAll_of_absent absent
  grown := grown
  only := rfl

/-- Settings are applied as a whole or not at all. If a resolver, or one nested in it, cannot be
built, the first deployment with such a resolver is reported and the host stays as it was. -/
theorem apply_all_or_nothing (settings : Settings) (host : Host) :
    ((∃ deployment ∈ settings.deployments, ¬ Valid host.around.files deployment.resolver) →
      ∃ front deployment back reason, settings.deployments = front ++ deployment :: back ∧
        (∀ earlier ∈ front, Valid host.around.files earlier.resolver) ∧
        FirstFault host.around.files deployment.resolver.leaves reason ∧
        settings.apply host = (.error (.resolver deployment.service reason), host)) ∧
    ((∀ deployment ∈ settings.deployments, Valid host.around.files deployment.resolver) →
      ∃ after, settings.apply host = (.ok settings.deployments.length, after) ∧
        Deployed settings.deployments host after) := by
  have comes : Comes (buildAll host.around.files settings.deployments host.resolvers) _ _ :=
    buildAll_comes settings.deployments host.resolvers
  cases fault : settings.deployments.findSome? (fault? host.around.files) with
  | some cause =>
    rw [fault] at comes
    have failed : buildAll host.around.files settings.deployments host.resolvers =
      .error cause := comes
    obtain ⟨front, deployment, back, split, found, sound⟩ := List.findSome?_eq_some_iff.mp fault
    obtain ⟨reason, first, rfl⟩ := fault?_eq_some_iff.mp found
    refine ⟨fun _ => ⟨front, deployment, back, reason, split, ?_, first, ?_⟩, ?_⟩
    · exact fun earlier member => fault?_eq_none_iff.mp (sound earlier member)
    · rw [apply, failed]
    · intro valid
      have none_found := fault?_eq_none_iff.mpr (valid deployment (by simp [split]))
      simp [found] at none_found
  | none =>
    rw [fault] at comes
    obtain ⟨built, resolvers, done, grown, all⟩ := comes
    have valid : ∀ deployment ∈ settings.deployments,
        Valid host.around.files deployment.resolver := fun deployment member =>
      fault?_eq_none_iff.mp (List.findSome?_eq_none_iff.mp fault deployment member)
    constructor
    · rintro ⟨deployment, member, broken⟩
      exact absurd (valid deployment member) broken
    · intro _
      refine ⟨_, ?_, deployed_of_ready grown all⟩
      rw [apply, done]
      simp only [foldl_deploy, all.length_eq]

end Settings

end ServiceHost

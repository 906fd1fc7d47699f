import Mathlib.Logic.Function.Basic

/-!
# Counting the votes of the cluster managers

Every node votes with one row of a matrix: entry `j` of row `i` is 1 when
node `i` reports node `j` connected. `cms_get_max_full_connect` keeps the
edges that both ends report, grows a group from every edge in index order,
keeps for each node the first largest group it has grown, and picks one of
these groups: the largest, then the one with the most online nodes, then
the one with the most joined nodes, then the one of the smallest node.

An array of 0 and 1 over the nodes is a function to `Bool`. A loop over
the nodes is a recursion on the number of nodes it has passed.
-/

namespace Cantian.Cms.Vote

/-- `CMS_MAX_NODE_COUNT`. -/
def maxNodeCount : Nat := 64

/-- `max_clique_t`, without `node_count`. -/
structure MaxClique where
  maxCliqueNumIndex : Nat
  containSpecifyNodeClique : Nat → Nat → Bool
  specifyNodeCliqueNum : Nat → Nat

/-- `add_new_node` of `cms_join_node_set_inner` after the nodes before `t`. -/
def joinNodeSetInner (adj : Nat → Nat → Bool) (res : Nat → Bool) (m : Nat) : Nat → Bool
  | 0 => true
  | t + 1 => if res t && !adj t m then false else joinNodeSetInner adj res m t

/-- The node set of `cms_join_node_set` after the nodes before `m`; the source
starts at `j + 1`. -/
def joinNodeSet (nodeCount : Nat) (adj : Nat → Nat → Bool) (res : Nat → Bool) (j : Nat) :
    Nat → Nat → Bool
  | 0 => res
  | m + 1 =>
    let cur := joinNodeSet nodeCount adj res j m
    if j < m && joinNodeSetInner adj cur m nodeCount then Function.update cur m true else cur

/-- The nodes of the set among the first ones. -/
def countNodes (s : Nat → Bool) : Nat → Nat
  | 0 => 0
  | k + 1 => if s k then countNodes s k + 1 else countNodes s k

/-- The set that grows from the edge of `i` and `j`. -/
def grow (nodeCount : Nat) (adj : Nat → Nat → Bool) (i j : Nat) : Nat → Bool :=
  joinNodeSet nodeCount adj (fun k => k == i || k == j) j nodeCount

def solveMaxCliqueInner (nodeCount : Nat) (adj : Nat → Nat → Bool) (clique : MaxClique)
    (i j : Nat) : MaxClique :=
  let res := grow nodeCount adj i j
  let tmpCliqueNum := countNodes res nodeCount
  if clique.specifyNodeCliqueNum i < tmpCliqueNum then
    { clique with
      containSpecifyNodeClique := Function.update clique.containSpecifyNodeClique i fun k =>
        if k < nodeCount then res k else clique.containSpecifyNodeClique i k
      specifyNodeCliqueNum := Function.update clique.specifyNodeCliqueNum i tmpCliqueNum }
  else clique

/-- The inner loop of `cms_solve_max_clique` for node `i`, with `all_node_isolate`. -/
def solveMaxCliqueEdges (nodeCount : Nat) (adj : Nat → Nat → Bool) (clique : MaxClique)
    (i : Nat) : Nat → MaxClique × Bool
  | 0 => (clique, true)
  | j + 1 =>
    let cur := solveMaxCliqueEdges nodeCount adj clique i j
    if adj i j then (solveMaxCliqueInner nodeCount adj cur.1 i j, false) else cur

def solveMaxCliqueNode (nodeCount : Nat) (adj : Nat → Nat → Bool) (clique : MaxClique)
    (i : Nat) : MaxClique :=
  let (cur, allNodeIsolate) := solveMaxCliqueEdges nodeCount adj clique i nodeCount
  if allNodeIsolate then
    { cur with specifyNodeCliqueNum :=
        Function.update cur.specifyNodeCliqueNum i (if adj i i then 1 else 0) }
  else cur

/-- The groups of `cms_solve_max_clique` after the nodes before `i`. -/
def solveMaxClique (nodeCount : Nat) (adj : Nat → Nat → Bool) : Nat → MaxClique
  | 0 => ⟨0, fun _ _ => false, fun _ => 0⟩
  | i + 1 => solveMaxCliqueNode nodeCount adj (solveMaxClique nodeCount adj i) i

/-- `max_group_index`, `max_group_node_num` and `max_group_count`. -/
structure MaxGroup where
  index : Nat
  nodeNum : Nat
  count : Nat

/-- The first loop of `cms_have_multiple_max_group` after the entries before `i`. -/
def scanMaxGroup (nodeNumArray : Nat → Nat) : Nat → MaxGroup
  | 0 => ⟨0, 0, 0⟩
  | i + 1 =>
    let cur := scanMaxGroup nodeNumArray i
    if i == 0 then ⟨0, nodeNumArray 0, 1⟩
    else if nodeNumArray i == cur.nodeNum then { cur with count := cur.count + 1 }
    else if cur.nodeNum < nodeNumArray i then ⟨i, nodeNumArray i, 1⟩
    else cur

/-- `cms_have_multiple_max_group`: `node_index`, the array that keeps only the
maximal entries, and whether there are several of them. -/
def haveMultipleMaxGroup (nodeCount : Nat) (nodeNumArray : Nat → Nat) : Nat × (Nat → Nat) × Bool :=
  let group := scanMaxGroup nodeNumArray nodeCount
  if group.count == 1 then (group.index, nodeNumArray, false)
  else (group.index, fun i => if nodeNumArray i == group.nodeNum then nodeNumArray i else 0, true)

/-- One entry of `max_clique_num_arr` after the nodes before `j` that `drop`
selects are taken off. -/
def takeOff (contain drop : Nat → Bool) (num : Nat) : Nat → Nat
  | 0 => num
  | j + 1 =>
    let cur := takeOff contain drop num j
    if 0 < cur && contain j && drop j then cur - 1 else cur

/-- The loop of step 4 of `cms_get_max_num_index`. -/
def minNodeIndex (num : Nat → Nat) : Nat → Nat
  | 0 => 0
  | i + 1 =>
    let cur := minNodeIndex num i
    if num cur < num i then i else cur

/-- `cms_get_max_num_index`. -/
def getMaxNumIndex (nodeCount : Nat) (clique : MaxClique) (online onlineJoined : Nat → Bool) :
    Nat :=
  let group := haveMultipleMaxGroup nodeCount clique.specifyNodeCliqueNum
  if !group.2.2 then group.1
  else
    let onlineGroup := haveMultipleMaxGroup nodeCount fun i =>
      takeOff (clique.containSpecifyNodeClique i) (fun j => !online j) (group.2.1 i) nodeCount
    if !onlineGroup.2.2 then onlineGroup.1
    else
      let joinedGroup := haveMultipleMaxGroup nodeCount fun i =>
        takeOff (clique.containSpecifyNodeClique i) (fun j => online j && !onlineJoined j)
          (onlineGroup.2.1 i) nodeCount
      if !joinedGroup.2.2 then joinedGroup.1
      else minNodeIndex clique.specifyNodeCliqueNum nodeCount

/-- The bitmap of the nodes of a group among the first ones. -/
def clusterBitmap (contain : Nat → Bool) : Nat → Nat
  | 0 => 0
  | i + 1 => if contain i then clusterBitmap contain i ||| 1 <<< i else clusterBitmap contain i

/-- `save_tmp_res_arr`: the edges that both ends report. -/
def fullConnect (votes : Nat → Nat → Nat) (i j : Nat) : Bool :=
  votes i j == 1 && votes j i == 1

/-- `cms_get_max_full_connect`, with the node sets that `cms_get_final_vote_res`
reads; the result is `new_cluster_bitmap`. -/
def getMaxFullConnect (nodeCount : Nat) (votes : Nat → Nat → Nat)
    (online onlineJoined : Nat → Bool) : Nat :=
  let clique := solveMaxClique nodeCount (fullConnect votes) nodeCount
  let index := getMaxNumIndex nodeCount clique online onlineJoined
  clusterBitmap (clique.containSpecifyNodeClique index) nodeCount

end Cantian.Cms.Vote

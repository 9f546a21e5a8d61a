import ComputeRuntime.Helpers.DebugHelpers
import Mathlib.Logic.Function.Basic

/-! Resolving external functions: what a function needs from the device, its callers need too, and
so do the kernels. The functions are taken in the order in which a depth-first walk along their
calls leaves them. -/
namespace ComputeRuntime.ExternalFunctions

inductive ExternalFunctionResolveError where
  | resolveSuccess
  | errorExternalFunctionInfoMissing
  | errorKernelDescriptorMissing
  | errorLoopDetected
  deriving DecidableEq

structure ExternalFunctionInfo where
  functionName : String := ""
  barrierCount : Nat := 0
  hasRTCalls : Bool := false
  deriving DecidableEq

structure ExternalFunctionUsageKernel where
  usedFuncName : String
  kernelName : String
  deriving DecidableEq

structure ExternalFunctionUsageExtFunc where
  usedFuncName : String
  callerFuncName : String
  deriving DecidableEq

/-- The attributes of a kernel's descriptor that resolving changes. -/
structure KernelAttributes where
  barrierCount : Nat := 0
  hasRTCalls : Bool := false
  deriving DecidableEq

abbrev FuncNameToIdMapT : Type := String → Option Nat

abbrev KernelDescriptorMapT : Type := String → Option KernelAttributes

/-- The functions that each function calls, and those that call it, by their ids. -/
structure Dependencies where
  outDependencies : List (List Nat)
  outCalledBy : List (List Nat)
  deriving DecidableEq

/-- The last function of a name is the one that is found. -/
def funcNameToId (externalFunctionInfos : List ExternalFunctionInfo) : FuncNameToIdMapT :=
  externalFunctionInfos.zipIdx.foldl
    (fun map entry => Function.update map entry.1.functionName (Option.some entry.2))
    fun _ => none

/-- The loop over the dependencies, on the lists it fills. -/
def getExtFuncDependencies (funcNameToId : FuncNameToIdMapT) :
    List ExternalFunctionUsageExtFunc → Dependencies →
      ExternalFunctionResolveError × Dependencies
  | [], out => (.resolveSuccess, out)
  | funcDep :: rest, out =>
    match funcNameToId funcDep.callerFuncName, funcNameToId funcDep.usedFuncName with
    | .some callerId, .some calleeId =>
      getExtFuncDependencies funcNameToId rest
        ⟨out.outDependencies.modify callerId (· ++ [calleeId]),
          out.outCalledBy.modify calleeId (· ++ [callerId])⟩
    | _, _ => (.errorExternalFunctionInfoMissing, out)

structure DependencyResolver where
  seen : List Nat := []
  resolved : List Nat := []
  deriving DecidableEq

/-- A call of the walk, with the depth of calls that is left. -/
def resolveDependency (graph : List (List Nat)) :
    Nat → Nat → DependencyResolver → Result DependencyResolver
  | 0, _, _ => .error .outOfFuel
  | fuel + 1, nodeId, resolver =>
    (graph.getD nodeId []).foldlM (fun resolver edgeId =>
      if edgeId ∉ resolver.resolved ∧ edgeId ∉ resolver.seen then
        resolveDependency graph fuel edgeId resolver
      else .ok resolver) { resolver with seen := resolver.seen ++ [nodeId] } >>= fun resolver =>
    .ok { resolver with resolved := resolver.resolved ++ [nodeId] }

def resolveDependencies (fuel : Nat) (graph : List (List Nat)) : Result (List Nat) :=
  (List.range graph.length).foldlM (fun (resolver : DependencyResolver) i =>
    if i ∉ resolver.seen then resolveDependency graph fuel i resolver
    else .ok resolver) {} >>= fun resolver =>
  .ok resolver.resolved

/-- A caller needs what its callee needs. -/
def ExternalFunctionInfo.require (caller callee : ExternalFunctionInfo) : ExternalFunctionInfo :=
  { caller with
    barrierCount := max caller.barrierCount callee.barrierCount
    hasRTCalls := caller.hasRTCalls || callee.hasRTCalls }

/-- The loop over the callers of one function. -/
def updateCallers (calledBy : List (List Nat)) (infos : List ExternalFunctionInfo)
    (calleeId : Nat) : List ExternalFunctionInfo :=
  (calledBy.getD calleeId []).foldl (fun infos callerId =>
    infos.modify callerId (·.require (infos.getD calleeId {}))) infos

def resolveExtFuncDependencies (fuel : Nat) (externalFunctionInfos : List ExternalFunctionInfo)
    (funcNameToId : FuncNameToIdMapT) (funcDependencies : List ExternalFunctionUsageExtFunc) :
    Result (ExternalFunctionResolveError × List ExternalFunctionInfo) :=
  match getExtFuncDependencies funcNameToId funcDependencies
    ⟨.replicate externalFunctionInfos.length [], .replicate externalFunctionInfos.length []⟩ with
  | (.resolveSuccess, dependencies) =>
    resolveDependencies fuel dependencies.outDependencies >>= fun resolved =>
    .ok (.resolveSuccess,
      resolved.foldl (updateCallers dependencies.outCalledBy) externalFunctionInfos)
  | (error, _) => .ok (error, externalFunctionInfos)

/-- A kernel needs what a function it calls needs. -/
def KernelAttributes.require (kernelAttributes : KernelAttributes)
    (externalFunctionInfo : ExternalFunctionInfo) : KernelAttributes :=
  ⟨max externalFunctionInfo.barrierCount kernelAttributes.barrierCount,
    kernelAttributes.hasRTCalls || externalFunctionInfo.hasRTCalls⟩

def resolveKernelDependencies (externalFunctionInfos : List ExternalFunctionInfo)
    (funcNameToId : FuncNameToIdMapT) : List ExternalFunctionUsageKernel → KernelDescriptorMapT →
      ExternalFunctionResolveError × KernelDescriptorMapT
  | [], nameToKernelDescriptor => (.resolveSuccess, nameToKernelDescriptor)
  | kernelDep :: rest, nameToKernelDescriptor =>
    match funcNameToId kernelDep.usedFuncName with
    | none => (.errorExternalFunctionInfoMissing, nameToKernelDescriptor)
    | .some id =>
      match nameToKernelDescriptor kernelDep.kernelName with
      | none => (.errorKernelDescriptorMissing, nameToKernelDescriptor)
      | .some kernelAttributes =>
        resolveKernelDependencies externalFunctionInfos funcNameToId rest
          (Function.update nameToKernelDescriptor kernelDep.kernelName
            (Option.some (kernelAttributes.require (externalFunctionInfos.getD id {}))))

/-- The code, and the functions and kernels as they are left behind. -/
def resolveExternalDependencies (fuel : Nat) (externalFunctionInfos : List ExternalFunctionInfo)
    (kernelDependencies : List ExternalFunctionUsageKernel)
    (funcDependencies : List ExternalFunctionUsageExtFunc)
    (nameToKernelDescriptor : KernelDescriptorMapT) :
    Result (ExternalFunctionResolveError × List ExternalFunctionInfo × KernelDescriptorMapT) :=
  resolveExtFuncDependencies fuel externalFunctionInfos (funcNameToId externalFunctionInfos)
    funcDependencies >>= fun
    | (.resolveSuccess, infos) =>
      let (error, kernels) := resolveKernelDependencies infos (funcNameToId externalFunctionInfos)
        kernelDependencies nameToKernelDescriptor
      .ok (error, infos, kernels)
    | (error, infos) => .ok (error, infos, nameToKernelDescriptor)

end ComputeRuntime.ExternalFunctions

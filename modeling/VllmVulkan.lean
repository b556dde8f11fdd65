import VllmVulkan.Lib.Dispatch
import VllmVulkan.Kv.Ops
import VllmVulkan.Kv.Write
import VllmVulkan.Kv.Decode
import VllmVulkan.Lib.Interleave
import VllmVulkan.Kv.Coop
import VllmVulkan.Attention.Entry
import VllmVulkan.Lib.Machine
import VllmVulkan.Attention.Backend
import VllmVulkan.Attention.Attempts
import VllmVulkan.Attention.Mirror
import VllmVulkan.Attention.Merged
import VllmVulkan.Context.ChainRefs
import VllmVulkan.Bridge.Remote
import VllmVulkan.Weights.Cache
import VllmVulkan.Gemma4.Ops
import VllmVulkan.Lib.Commands
import VllmVulkan.Lib.Panic
import VllmVulkan.Gemma4.Reference
import VllmVulkan.Gemma4.Dispatch
import VllmVulkan.Gemma4.Gpu
import VllmVulkan.Gemma4.Submit
import VllmVulkan.Gemma4.Layer
import VllmVulkan.Gemma4.Live
import VllmVulkan.Gemma4.Branches
import VllmVulkan.Gemma4.Forward
import VllmVulkan.Lib.Sessions
import VllmVulkan.Gemma4.Sampling
import VllmVulkan.Server.Generate
import VllmVulkan.Gemma4.Calls
import VllmVulkan.Attention.Prefix
import VllmVulkan.Lib.Tiling
import VllmVulkan.Kv.Partition
import VllmVulkan.Kv.Address
import VllmVulkan.Lib.Collectives
import VllmVulkan.Parallel.Hooks
import VllmVulkan.Parallel.Shards
import VllmVulkan.Parallel.Lockstep
import VllmVulkan.Gemma4.Tokens
import VllmVulkan.Gemma4.Passes
import VllmVulkan.Gemma4.Follow
import VllmVulkan.Gemma4.Bookkeeping
import VllmVulkan.Gemma4.Total
import VllmVulkan.Gemma4.Upload
import VllmVulkan.Gemma4.Pool
import VllmVulkan.Gemma4.Reset
import VllmVulkan.Attention.Caches
import VllmVulkan.Context.Makers
import VllmVulkan.Context.Barriers
import VllmVulkan.Kv.Batch
import VllmVulkan.Weights.Mlp
import VllmVulkan.Context.Batches
import VllmVulkan.Gemma4.Draws
import VllmVulkan.Server.Sample
import VllmVulkan.Weights.Lifetime
import VllmVulkan.Gemma4.Failed
import VllmVulkan.Server.Capacity
import VllmVulkan.Weights.Contents
import VllmVulkan.Weights.Erasure
import VllmVulkan.Weights.Fallback
import VllmVulkan.Weights.Swiglu
import VllmVulkan.Lib.Loops
import VllmVulkan.Linear.Matvec
import VllmVulkan.Linear.Matmul
import VllmVulkan.Linear.Product
import VllmVulkan.Linear.Kernels
import VllmVulkan.Kv.Coordinates
import VllmVulkan.Lib.Rotation
import VllmVulkan.Gemma4.Rope
import VllmVulkan.Gemma4.Sdpa
import VllmVulkan.Lib.Segments
import VllmVulkan.Platform.SlotMapping
import VllmVulkan.Platform.ContextCap
import VllmVulkan.Context.Descriptors
import VllmVulkan.Context.Deferred
import VllmVulkan.Context.Chained
import VllmVulkan.Lib.Words
import VllmVulkan.Kv.Width
import VllmVulkan.Gemma4.Sequence
import VllmVulkan.Server.Autoregress
import VllmVulkan.Server.Answers
import VllmVulkan.Lib.Workgroups
import VllmVulkan.Shader.Launch
import VllmVulkan.Shader.Elementwise
import VllmVulkan.Shader.RmsNorm
import VllmVulkan.Shader.MulMatVec
import VllmVulkan.Shader.Submission
import VllmVulkan.Shader.Fused
import VllmVulkan.Kv.Sequences
import VllmVulkan.Lib.UnitDraws
import VllmVulkan.Server.Distribution
import VllmVulkan.Linear.Layer
import VllmVulkan.Linear.Returns

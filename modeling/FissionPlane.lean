import FissionPlane.VmSteward.Main
import FissionPlane.VmSteward.Handshake
import FissionPlane.Sdk.Remint
import FissionPlane.Sdk.TokenSource
import FissionPlane.Sdk.Retry
import FissionPlane.Sdk.StreamAgreement
import FissionPlane.Sdk.StreamDelivery
import FissionPlane.Sdk.StreamFinality
import FissionPlane.Sdk.Kill
import FissionPlane.Sdk.PythonErrors
import FissionPlane.Sdk.HttpFetch
import FissionPlane.Api.Gate
import FissionPlane.Domain.Agreement
import FissionPlane.VmSteward.Outcomes
import FissionPlane.VmInit.Backoff
import FissionPlane.Sdk.StreamLifecycle
import FissionPlane.Sdk.StreamOutbound
import FissionPlane.Sdk.EventSocket
import FissionPlane.Sdk.Pagination
import FissionPlane.Sdk.ListFilter
import FissionPlane.Sdk.ClientDocuments
import FissionPlane.Sdk.RequestBodies
import FissionPlane.Sdk.Credentials
import FissionPlane.Sdk.StreamUrl
import FissionPlane.VmProtocol.Reader
import FissionPlane.Sdk.RetryJitter
import FissionPlane.Sdk.RequestOverrides
import FissionPlane.Sdk.Base64Url
import FissionPlane.Sdk.TemplateWait
import FissionPlane.Domain.DisplayName
import FissionPlane.ConsoleWeb.OrganizationSlug
import FissionPlane.Api.SubjectChannel
import FissionPlane.Api.Console
import FissionPlane.Sdk.FetchWrapper
import FissionPlane.Sdk.SandboxHandle
import FissionPlane.Lib.Simulation
import FissionPlane.VmProtocol.Chunks
import FissionPlane.VmSteward.Established
import FissionPlane.Sdk.SandboxFleet
